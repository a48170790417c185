import YaskawaComms.Logging.RingLock
import YaskawaComms.Logging.RingQueue
import YaskawaComms.Protocol.MoveGoal
import YaskawaComms.Protocol.Resync
import YaskawaComms.Server.Handling
import YaskawaComms.Server.World
import YaskawaComms.Protocol.Framing
import YaskawaComms.Server.Fragmentation
import YaskawaComms.Server.StreamPosition
import YaskawaComms.Server.Announcements
import YaskawaComms.Server.IdleTimeout
import YaskawaComms.Server.Ownership
import YaskawaComms.Framework.Codec
import YaskawaComms.Framework.Completion
import YaskawaComms.Protocol.MoveGoalLayout
import YaskawaComms.Server.Allocations
import YaskawaComms.Server.MoveGoals
import YaskawaComms.Server.Registration
import YaskawaComms.Server.Descriptors
import YaskawaComms.Logging.RingExchange
import YaskawaComms.Logging.RingLifecycle
import YaskawaComms.Protocol.Outgoing
import YaskawaComms.Server.Delivery
import YaskawaComms.Server.Running
import YaskawaComms.Server.Status
import YaskawaComms.Logging.Draining
import YaskawaComms.Logging.Interfaces
import YaskawaComms.Protocol.MoveGoalCopy
import YaskawaComms.Server.IdleClock
import YaskawaComms.Protocol.HeaderResult
import YaskawaComms.Server.PayloadLoop
import YaskawaComms.Server.Decoding
import YaskawaComms.Server.RoundTrips
import YaskawaComms.Framework.HeapUse
import YaskawaComms.Server.HeapBalance
import YaskawaComms.Logging.RingSharing
import YaskawaComms.Logging.RingWriters
import YaskawaComms.Server.Joining
import YaskawaComms.Framework.Descent
import YaskawaComms.Server.Shutdown
import YaskawaComms.Server.HeapSharing
import YaskawaComms.Server.ClientRegions
import YaskawaComms.Logging.LogService
import YaskawaComms.Framework.Outcomes
import YaskawaComms.Robot.MockRobot
import YaskawaComms.Robot.Commands
import YaskawaComms.Framework.Agenda
import YaskawaComms.Robot.Goals
import YaskawaComms.Robot.Sessions
import YaskawaComms.Robot.Heap
