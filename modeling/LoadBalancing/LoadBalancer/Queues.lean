/-
LoadBalancing.LoadBalancer.Queues — the two ring-buffer queues of the
load balancer, `LoadBalancer/ClientRequestQueue.c` and
`LoadBalancer/WorkerResponseQueue.c`.

Each is a `BoundedBuffer` whose calls copy messages into and out of the
slots. `ClientRequestQueue` has two producer calls, put and return.

Out of scope: the NULL checks, and waits that fail for another reason
than a timeout.
-/
import LoadBalancing.Base.BoundedBuffer
import LoadBalancing.LoadBalancer.SharedLibs

namespace LoadBalancing.LoadBalancer

open LoadBalancing.Base LoadBalancing.Lib

/-! ## Client requests -/

/-- `ClientRequestQueue`. -/
abbrev ClientRequestQueue := BoundedBuffer ClientRequest clientRequestQueueCapacity

/-- `InitializeClientRequestQueue`, over whatever the slots hold. -/
def initializeClientRequestQueue (slots : Nat → ClientRequest) : ClientRequestQueue :=
  BoundedBuffer.new slots clientRequestQueueCapacity_pos

/-- `PutClientRequestQueue`, with the arguments as a request. -/
def putClientRequestQueue (queue : ClientRequestQueue) (request : ClientRequest) :
    Int × ClientRequestQueue :=
  if request.clientSocket = none then (-1, queue) else queue.enqueue request.copy

/-- `TakeClientRequestQueue` into `request`; `none` is the result 0. -/
def takeClientRequestQueue (queue : ClientRequestQueue) (request : ClientRequest) :
    Option ClientRequest × ClientRequestQueue :=
  (queue.dequeue.1.map fun slot => slot.copy request, queue.dequeue.2)

/-- `ReturnClientRequestQueue`. -/
def returnClientRequestQueue (queue : ClientRequestQueue) (request : ClientRequest) :
    Int × ClientRequestQueue :=
  queue.enqueue request.copy

/-! ## Worker responses -/

/-- `WorkerResponseQueue`. -/
abbrev WorkerResponseQueue := BoundedBuffer WorkerResponse workerResponseQueueCapacity

/-- `InitializeWorkerResponseQueue`. -/
def initializeWorkerResponseQueue (slots : Nat → WorkerResponse) : WorkerResponseQueue :=
  BoundedBuffer.new slots workerResponseQueueCapacity_pos

/-- `PutWorkerResponseQueue`, with the arguments as a response. -/
def putWorkerResponseQueue (queue : WorkerResponseQueue) (response : WorkerResponse) :
    Int × WorkerResponseQueue :=
  if response.workerSocket = none then (-1, queue) else queue.enqueue response.copy

/-- `TakeWorkerResponseQueue` into `response`; `none` is the result 0. -/
def takeWorkerResponseQueue (queue : WorkerResponseQueue) (response : WorkerResponse) :
    Option WorkerResponse × WorkerResponseQueue :=
  (queue.dequeue.1.map fun slot => slot.copy response, queue.dequeue.2)

end LoadBalancing.LoadBalancer
