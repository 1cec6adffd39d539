import DeviceTester.Writer
import DeviceTester.WritePump
import DeviceTester.TcpClient
import DeviceTester.TcpSessions
import DeviceTester.UdpConnection
import DeviceTester.Serial
import DeviceTester.SerialRequests
import DeviceTester.WriteSide
import DeviceTester.TcpServer
import DeviceTester.TokenTable
import DeviceTester.CoapClient
import DeviceTester.CoapSessions
import DeviceTester.CoapRequests
import DeviceTester.CoapTrace
import DeviceTester.PeerOptions
import DeviceTester.WriterThreads
import DeviceTester.ServerRegistry
import DeviceTester.ServerAccepts
import DeviceTester.ServerReads
import DeviceTester.UdpReceiving
import DeviceTester.RingBufferQueue
import DeviceTester.SerialWin
import DeviceTester.TokenSteps
import DeviceTester.CoapThreads
import DeviceTester.Consoles
import DeviceTester.Framework.Windows
import DeviceTester.RingBufferThreads
import DeviceTester.ScrollingBuffer
import DeviceTester.SerialOpening
import DeviceTester.ServerRunning
import DeviceTester.ConcurrentSends
import DeviceTester.RawDataWin
import DeviceTester.Framework.Records
import DeviceTester.CoapPaths
import DeviceTester.CoapBodies
import DeviceTester.TokenMemory
import DeviceTester.Framework.Lifetimes
import DeviceTester.ConnectionLifetimes
import DeviceTester.ReceiveBuffers
import DeviceTester.MessageSends
import DeviceTester.LuaLifetimes
import DeviceTester.ConsoleFrames
import DeviceTester.ConsoleReceives
import DeviceTester.ConsoleStreams
import DeviceTester.TcpPeer
import DeviceTester.ManagerImpl
import DeviceTester.CoapLocks
import DeviceTester.Framework.Pipes
