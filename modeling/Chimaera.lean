import Chimaera.Base.Base64
import Chimaera.Base.BigEndian
import Chimaera.Base.Buckets
import Chimaera.Base.Buffered
import Chimaera.Base.Calls
import Chimaera.Base.Capacity
import Chimaera.Base.Cartesian
import Chimaera.Base.Characters
import Chimaera.Base.Checked
import Chimaera.Base.Dictionary
import Chimaera.Base.Files
import Chimaera.Base.Flow
import Chimaera.Base.Folders
import Chimaera.Base.JsonText
import Chimaera.Base.Netstring
import Chimaera.Base.Quoted
import Chimaera.Base.Regex
import Chimaera.Base.Relay
import Chimaera.Base.Segments
import Chimaera.Base.Shell
import Chimaera.Base.Stream
import Chimaera.Base.Text
import Chimaera.Base.Tracking
import Chimaera.Base.Transition
import Chimaera.Base.Unsigned
import Chimaera.Base.Weighted
import Chimaera.Base.Worklist
import Chimaera.Benchmark.Analysis
import Chimaera.Benchmark.Averages
import Chimaera.Benchmark.Collector
import Chimaera.Benchmark.Comparison
import Chimaera.Benchmark.Configuration
import Chimaera.Benchmark.Flattening
import Chimaera.Benchmark.Guarantee
import Chimaera.Benchmark.Pooling
import Chimaera.Benchmark.Recording
import Chimaera.Benchmark.Statistics
import Chimaera.Benchmark.Truncation
import Chimaera.Containers.Config
import Chimaera.Containers.Disk
import Chimaera.Containers.Exclusive
import Chimaera.Containers.Invariant
import Chimaera.Containers.Mounts
import Chimaera.Containers.Moves
import Chimaera.Containers.Packages
import Chimaera.Containers.Runner
import Chimaera.Containers.Scheduler
import Chimaera.Control.Agreement
import Chimaera.Control.Allocation
import Chimaera.Control.Application
import Chimaera.Control.Coalescing
import Chimaera.Control.Codec
import Chimaera.Control.Conservation
import Chimaera.Control.Failures
import Chimaera.Control.Fifo
import Chimaera.Control.Guest
import Chimaera.Control.Host
import Chimaera.Control.Limits
import Chimaera.Control.Phase
import Chimaera.Control.Queues
import Chimaera.Control.Refinement
import Chimaera.Control.System
import Chimaera.Gazebo.Alignment
import Chimaera.Gazebo.Controller
import Chimaera.Gazebo.Cosimulation
import Chimaera.Gazebo.Lockstep
import Chimaera.Gem5.Injection
import Chimaera.Gem5.OnlineCpus
import Chimaera.Robot.Core
import Chimaera.Robot.Safety
import Chimaera.Ros.Config
import Chimaera.Ros.Conservation
import Chimaera.Ros.Delivery
import Chimaera.Ros.Exchange
import Chimaera.Ros.Identity
import Chimaera.Ros.Lifecycle
import Chimaera.Ros.Node
import Chimaera.Ros.Programs
import Chimaera.Ros.Routing
import Chimaera.Ros.Sides
import Chimaera.Session.Acceptance
import Chimaera.Session.Bridge
import Chimaera.Session.Deployment
import Chimaera.Session.Document
import Chimaera.Session.Manifest
import Chimaera.Session.Parameters
import Chimaera.Session.Plan
import Chimaera.Session.Progress
import Chimaera.Session.Reload
import Chimaera.Session.Scripts
import Chimaera.Session.Shutdown
import Chimaera.Session.Staging
import Chimaera.Session.Supervision
import Chimaera.Session.Values
import Chimaera.Session.Verdict
import Chimaera.Suite.Invariant
import Chimaera.Suite.Moves
import Chimaera.Suite.Planning
import Chimaera.Suite.Resume
import Chimaera.Suite.Runner
import Chimaera.Suite.Sweep
import Chimaera.Timing.Agreement
import Chimaera.Timing.Client
import Chimaera.Timing.Commands
import Chimaera.Timing.Drift
import Chimaera.Timing.Errors
import Chimaera.Timing.Lifecycle
import Chimaera.Timing.Refusals
import Chimaera.Timing.Replies
import Chimaera.Timing.Runs
import Chimaera.Timing.Server
import Chimaera.Timing.Session
import Chimaera.Timing.Steps
import Chimaera.Transport.Framing
import Chimaera.Transport.Guest
import Chimaera.Transport.Host
import Chimaera.Transport.Latch
import Chimaera.Transport.Link
