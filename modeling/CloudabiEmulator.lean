import CloudabiEmulator.Abi
import CloudabiEmulator.PathModel
import CloudabiEmulator.PathLoop
import CloudabiEmulator.PathConfinement
import CloudabiEmulator.PathReference
import CloudabiEmulator.ReadlinkDup
import CloudabiEmulator.TypeRights
import CloudabiEmulator.TableModel
import CloudabiEmulator.TableOps
import CloudabiEmulator.ObjectCalls
import CloudabiEmulator.TableSpec
import CloudabiEmulator.TableGrow
import CloudabiEmulator.TableInvariant
import CloudabiEmulator.HostDescriptors
import CloudabiEmulator.SockRecv
import CloudabiEmulator.ObjectLifetime
import CloudabiEmulator.SockSend
import CloudabiEmulator.Syscalls
import CloudabiEmulator.TableFrame
import CloudabiEmulator.TableRights
import CloudabiEmulator.ObjectCallSpec
import CloudabiEmulator.SockSendSpec
import CloudabiEmulator.SockRecvSpec
import CloudabiEmulator.PathCalls
import CloudabiEmulator.Timestamps
import CloudabiEmulator.Poll
import CloudabiEmulator.VectorIo
import CloudabiEmulator.Readdir
import CloudabiEmulator.FileOpen
import CloudabiEmulator.PathSandbox
import CloudabiEmulator.Surface
import CloudabiEmulator.Emulations
