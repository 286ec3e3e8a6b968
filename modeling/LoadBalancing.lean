import LoadBalancing.Base.Transition
import LoadBalancing.Base.Semaphore
import LoadBalancing.Lib.ProtocolCodec
import LoadBalancing.Lib.NetworkLib
import LoadBalancing.Lib.StreamReassembly
import LoadBalancing.Base.BoundedBuffer
import LoadBalancing.Base.SharedStreams
import LoadBalancing.Base.Threads
import LoadBalancing.Base.ChainedTable
import LoadBalancing.LoadBalancer.ClientThreadPool
import LoadBalancing.LoadBalancer.FrameAtomicity
import LoadBalancing.LoadBalancer.Queues
import LoadBalancing.LoadBalancer.QueueThreads
import LoadBalancing.LoadBalancer.SendFailures
import LoadBalancing.LoadBalancer.ThreadPools
import LoadBalancing.LoadBalancer.RequestTranslation
import LoadBalancing.LoadBalancer.RequestConservation
import LoadBalancing.LoadBalancer.ResponseConservation
import LoadBalancing.LoadBalancer.ResponseDispatcher
import LoadBalancing.LoadBalancer.WorkerListSemaphores
import LoadBalancing.LoadBalancer.WorkerRing
import LoadBalancing.LoadBalancer.Fairness
import LoadBalancing.LoadBalancer.FullMesh
import LoadBalancing.LoadBalancer.Shutdown
import LoadBalancing.LoadBalancer.Registration
import LoadBalancing.Worker.Replication
import LoadBalancing.Worker.TableRefinement
import LoadBalancing.Worker.PeerImport
import LoadBalancing.Worker.PeerFrames
import LoadBalancing.Worker.ExportGap
import LoadBalancing.Worker.PeerChurn
import LoadBalancing.Lib.ReceiveBuffer
import LoadBalancing.Lib.SendBuffer
import LoadBalancing.Lib.PartialTransfer
import LoadBalancing.Pipeline.Refinement
import LoadBalancing.Pipeline.Joining
import LoadBalancing.Lib.ErrorRoundTrip
import LoadBalancing.LoadBalancer.ExportDelegation
import LoadBalancing.LoadBalancer.RegistrySends
import LoadBalancing.Worker.PeerBroadcast
import LoadBalancing.Worker.TableFailures
import LoadBalancing.Worker.ExportImport
import LoadBalancing.Worker.ExportQueue
import LoadBalancing.Worker.HashCollapse
import LoadBalancing.Worker.Shutdown
import LoadBalancing.Client.VerificationRun
import LoadBalancing.Client.BackOff
import LoadBalancing.Client.Keys
import LoadBalancing.Worker.StoredValues
import LoadBalancing.Pipeline.Provenance
import LoadBalancing.Pipeline.AtMostOnce
import LoadBalancing.Worker.TableLife
import LoadBalancing.Pipeline.ExactlyOnce
import LoadBalancing.Worker.PeerSockets
import LoadBalancing.Pipeline.Progress
