import GeonServer.Lts
import GeonServer.Tally
import GeonServer.Frames
import GeonServer.Winsock
import GeonServer.RecvBuffer
import GeonServer.OnRecv
import GeonServer.RecvRun
import GeonServer.Lock
import GeonServer.LockRun
import GeonServer.SendPath
import GeonServer.SendRun
import GeonServer.JobQueue
import GeonServer.JobToken
import GeonServer.JobDelivery
import GeonServer.SendBuffer
import GeonServer.SendBufferEffect
import GeonServer.SendBufferRun
import GeonServer.SendBufferBytes
import GeonServer.Packet
import GeonServer.PacketRun
import GeonServer.WireRoundTrip
import GeonServer.OrdMap
import GeonServer.Room
import GeonServer.Chat
import GeonServer.ChatCore
import GeonServer.ChatRun
import GeonServer.ChatIds
import GeonServer.ChatOrder
import GeonServer.Net
import GeonServer.SendOwner
import GeonServer.Service
import GeonServer.ServiceEffect
import GeonServer.SessionLife
import GeonServer.ServiceMarks
import GeonServer.ServiceStep
import GeonServer.ServiceRun
import GeonServer.ServiceFaults
import GeonServer.GameContents
import GeonServer.ServiceCalls
import GeonServer.GameRun
import GeonServer.GameOrder
import GeonServer.GameClose
import GeonServer.RoomMembers
import GeonServer.ChatLimit
import GeonServer.ProtoParser
import GeonServer.PacketGenerator
import GeonServer.Digraph
import GeonServer.DeadLockProfiler
import GeonServer.CheckCycle
import GeonServer.CycleReport
import GeonServer.ProfilerRun
import GeonServer.AcceptLimit
import GeonServer.DebugLock
import GeonServer.OnRecvCalls
import GeonServer.RecvQueue
import GeonServer.DebugLockRun
import GeonServer.OpenClose
import GeonServer.MakeSendBuffer
import GeonServer.PacketTable
import GeonServer.EnterGame
import GeonServer.DBConnection
import GeonServer.RegisterAccept
import GeonServer.ThreadManager
import GeonServer.NestedGuards
import GeonServer.ClearJobs
import GeonServer.PriorityQueue
import GeonServer.JobTimer
import GeonServer.TimerRun
import GeonServer.TimerDue
import GeonServer.TimerOwner
import GeonServer.BufferCursor
import GeonServer.BufferFields
import GeonServer.PlayerIndex
import GeonServer.DBBind
import GeonServer.FetchString
import GeonServer.DBConnectionPool
import GeonServer.SocketOwner
import GeonServer.LockCounters
import GeonServer.ProtoFile
import GeonServer.Ends
import GeonServer.SendOrder
import GeonServer.Link
import GeonServer.RwLock
import GeonServer.LockRefines
import GeonServer.LockOrder
import GeonServer.ServerLocks
import GeonServer.ProfilerSilent
import GeonServer.JobSettles
import GeonServer.ChatHeard
import GeonServer.ChatSettles
import GeonServer.ChatLogin
import GeonServer.DummyClient
import GeonServer.DummyClientRun
import GeonServer.PlayLogin
import GeonServer.PlayHeard
import GeonServer.ClientRest
import GeonServer.PlaySettles
import GeonServer.CleanRun
import GeonServer.SessionSends
import GeonServer.ServiceDrain
import GeonServer.ServiceRest
import GeonServer.GameRest
