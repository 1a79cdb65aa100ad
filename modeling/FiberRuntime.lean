import FiberRuntime.Stack
import FiberRuntime.Continuation
import FiberRuntime.Cache
import FiberRuntime.Growth
import FiberRuntime.Store
import FiberRuntime.Rewrite
import FiberRuntime.Realloc
import FiberRuntime.Locals
import FiberRuntime.LocalWalk
import FiberRuntime.LocalScan
import FiberRuntime.Chain
import FiberRuntime.Roots
import FiberRuntime.GrownRoots
import FiberRuntime.LocalAllocations
import FiberRuntime.Frames
import FiberRuntime.StackScan
import FiberRuntime.GrownFrames
