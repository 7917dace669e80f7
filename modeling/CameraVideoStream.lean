import CameraVideoStream.Foundation.Transition
import CameraVideoStream.Foundation.Refinement
import CameraVideoStream.Foundation.Potential
import CameraVideoStream.Foundation.Resumable
import CameraVideoStream.Common.Codec
import CameraVideoStream.Common.Stream
import CameraVideoStream.Common.Truncation
import CameraVideoStream.Common.Value
import CameraVideoStream.Server.Frames
import CameraVideoStream.Client.Client
import CameraVideoStream.Foundation.OrderedCursor
import CameraVideoStream.Server.Broadcast
import CameraVideoStream.Foundation.EarlyExit
import CameraVideoStream.Foundation.Ledger
import CameraVideoStream.Server.V4l2
import CameraVideoStream.Server.CameraApp
import CameraVideoStream.Server.CamInit
import CameraVideoStream.Server.CameraCapture
import CameraVideoStream.Server.Flags
import CameraVideoStream.Server.Buffers
import CameraVideoStream.Server.Mappings
import CameraVideoStream.Server.Queue
import CameraVideoStream.Server.Sessions
import CameraVideoStream.Server.Capture
import CameraVideoStream.Foundation.Loop
import CameraVideoStream.Common.OnMessage
import CameraVideoStream.Common.Buffer
import CameraVideoStream.Common.BufferCodec
import CameraVideoStream.Client.ByteCap
import CameraVideoStream.Client.Decode
import CameraVideoStream.Client.QueueLength
import CameraVideoStream.Server.InitFailure
import CameraVideoStream.Server.Table
import CameraVideoStream.Server.Streaming
import CameraVideoStream.Server.Starvation
import CameraVideoStream.Server.Delivery
import CameraVideoStream.Common.TestFps
import CameraVideoStream.Common.FpsClock
import CameraVideoStream.Common.BufferStream
import CameraVideoStream.Common.BufferMemory
import CameraVideoStream.Common.BufferDeque
import CameraVideoStream.Common.BufferFields
import CameraVideoStream.Server.ServerProcess
import CameraVideoStream.Server.PassEnds
import CameraVideoStream.Server.Survival
import CameraVideoStream.Server.ProcessCamera
import CameraVideoStream.Client.ClientProcess
import CameraVideoStream.Client.Settling
import CameraVideoStream.Foundation.Mutex
import CameraVideoStream.Foundation.Linearization
import CameraVideoStream.Client.Locking
import CameraVideoStream.Client.Writing
import CameraVideoStream.System.VideoStream
import CameraVideoStream.System.Provenance
import CameraVideoStream.System.CatchUp
import CameraVideoStream.System.Screens
