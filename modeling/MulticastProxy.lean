import MulticastProxy.Library.BucketTable
import MulticastProxy.Library.Ownership
import MulticastProxy.Library.Listing
import MulticastProxy.Library.Trace
import MulticastProxy.Common.MemberRow
import MulticastProxy.Common.IndexPool
import MulticastProxy.KernelServer.Netlink
import MulticastProxy.KernelServer.GroupSpec
import MulticastProxy.KernelServer.TableInvariant
import MulticastProxy.KernelServer.IndexOwnership
import MulticastProxy.KernelServer.Hook
import MulticastProxy.KernelServer.PacketStats
import MulticastProxy.KernelServer.Replies
import MulticastProxy.KernelServer.TwoParties
import MulticastProxy.KernelServer.Recover
import MulticastProxy.KernelServer.RowBounds
import MulticastProxy.KernelServer.Atomicity
import MulticastProxy.KernelServer.Deletion
import MulticastProxy.KernelServer.ShowScan
import MulticastProxy.KernelServer.ShowCount
import MulticastProxy.KernelServer.CopyAccounting
import MulticastProxy.KernelServer.MemberSync
import MulticastProxy.KernelServer.MessageBounds
import MulticastProxy.KernelServer.Grammar
import MulticastProxy.KernelServer.ConfigLock
import MulticastProxy.KernelServer.Service
import MulticastProxy.KernelClient.Fragments
import MulticastProxy.KernelClient.Sync
import MulticastProxy.KernelClient.Listing
import MulticastProxy.KernelClient.Fill
import MulticastProxy.KernelClient.Recover
import MulticastProxy.KernelClient.Capacity
import MulticastProxy.KernelClient.Deletion
import MulticastProxy.KernelClient.Update
import MulticastProxy.KernelClient.Undo
import MulticastProxy.KernelClient.Checksums
import MulticastProxy.KernelClient.Service
import MulticastProxy.KernelModules.FreeSlot
import MulticastProxy.KernelModules.DeleteAck
import MulticastProxy.KernelModules.AutoMake
import MulticastProxy.KernelModules.PacketPath
import MulticastProxy.KernelModules.Cloud
import MulticastProxy.KernelModules.Mesh
import MulticastProxy.LinuxServer.Load
import MulticastProxy.LinuxServer.TableInvariant
import MulticastProxy.LinuxServer.ReloadRace
import MulticastProxy.LinuxServer.Ports
import MulticastProxy.LinuxServer.Delivery
import MulticastProxy.LinuxServer.JoinOption
import MulticastProxy.LinuxServer.FanOut
import MulticastProxy.LinuxServer.SentBytes
import MulticastProxy.LinuxServer.Copies
import MulticastProxy.LinuxServer.Terminal
import MulticastProxy.LinuxServer.Service
import MulticastProxy.LinuxClient.Load
import MulticastProxy.LinuxClient.ConfigMap
import MulticastProxy.LinuxClient.LastWriter
import MulticastProxy.LinuxClient.StackBytes
import MulticastProxy.LinuxClient.FreeSlot
import MulticastProxy.LinuxClient.Division
import MulticastProxy.LinuxClient.Service
import MulticastProxy.LinuxProxies.LoopPrevention
import MulticastProxy.LinuxProxies.FailedReload
import MulticastProxy.LinuxProxies.ZeroChecksum
import MulticastProxy.LinuxProxies.Rfc1071
import MulticastProxy.LinuxProxies.PacketPath
import MulticastProxy.WinServer.StartUp
import MulticastProxy.WinServer.Lookup
import MulticastProxy.WinServer.Config
import MulticastProxy.WinServer.PacketPath
import MulticastProxy.WinServer.Service
import MulticastProxy.KernelServer.ShowRun
import MulticastProxy.KernelServer.Reentry
import MulticastProxy.KernelClient.Exchange
import MulticastProxy.WinServer.PoolStorage
