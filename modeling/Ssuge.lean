import Ssuge.RecordedRun
import Ssuge.Binary32
import Ssuge.CString
import Ssuge.Message
import Ssuge.MessageLayout
import Ssuge.GuardedRun
import Ssuge.MessageBounds
import Ssuge.MessageGetters
import Ssuge.MessageLossless
import Ssuge.MessageGaps
import Ssuge.MessageCrossing
import Ssuge.CreateMessage
import Ssuge.MessageGrowth
import Ssuge.MessageNumbers
import Ssuge.MessageFallbacks
import Ssuge.Enrolment
import Ssuge.InputManager
import Ssuge.InputListeners
import Ssuge.ActionState
import Ssuge.OrderedMap
import Ssuge.Procedure
import Ssuge.Engine
import Ssuge.ObjectRegistry
import Ssuge.EngineRuns
import Ssuge.ObjectHolders
import Ssuge.ComponentRegistries
import Ssuge.ObjectLoop
import Ssuge.Lua
import Ssuge.LuaStack
import Ssuge.Scripting
import Ssuge.ScriptStack
import Ssuge.ScriptClasses
import Ssuge.ScriptCreation
import Ssuge.NameLedger
import Ssuge.SceneResources
import Ssuge.SceneReleases
import Ssuge.Refinement
import Ssuge.RegistryMap
import Ssuge.OwnedPool
import Ssuge.Histories
import Ssuge.Oculus
import Ssuge.OculusDisplay
import Ssuge.OculusCalls
import Ssuge.Application
import Ssuge.Shutdown
import Ssuge.Startup
import Ssuge.Lifetime
import Ssuge.Physics
import Ssuge.ComponentOwnership
import Ssuge.Forest
import Ssuge.NestedNodes
import Ssuge.NodeUpdates
import Ssuge.ObjectArrival
import Ssuge.Exec
import Ssuge.InputEvents
import Ssuge.InputQueue
import Ssuge.Sounds
import Ssuge.CollisionDispatch
import Ssuge.LuaArguments
import Ssuge.Unaware
import Ssuge.ComponentFunctions
import Ssuge.DisabledComponents
import Ssuge.MessageMemory
import Ssuge.MessageCopies
import Ssuge.Joysticks
import Ssuge.AxisValues
import Ssuge.KeyState
import Ssuge.Animations
import Ssuge.QueueAnimation
import Ssuge.FrameLookups
import Ssuge.LastIndex
import Ssuge.FileNames
import Ssuge.ElapsedTime
import Ssuge.ContactPoints
import Ssuge.ManualObject
import Ssuge.DebugDrawer
import Ssuge.MessageLeaks
import Ssuge.StringCodec
import Ssuge.MoveTo
import Ssuge.BodySync
import Ssuge.Rounding
import Ssuge.ScriptIntegers
import Ssuge.ServedQueue
import Ssuge.Console
import Ssuge.MainLoop
import Ssuge.Doubling
import Ssuge.MessageCapacity
import Ssuge.Turning
import Ssuge.RotateTowards
import Ssuge.SoundLibrary
import Ssuge.TaggedQuery
import Ssuge.Approach
import Ssuge.Playback
