/-
LoadBalancing.Lib.SharedConfig — the constants of `Lib/SharedConfig.h`
that a modelled function reads.

Sleep times and wait timeouts are left out: a thread that sleeps is a
thread that takes no step for a while, and a wait that times out is an
outcome of the wait.
-/

namespace LoadBalancing.Lib

/-- `MAX_WORKERS`. -/
def maxWorkers : Nat := 8

/-- `MAX_CLIENTS`. -/
def maxClients : Nat := 8

/-- `MAX_MESSAGE_SIZE`. -/
def maxMessageSize : Nat := 1024

/-- `MAX_ERROR_MSG_SIZE`. -/
def maxErrorMsgSize : Nat := 1024

/-- `MAX_KEY_SIZE`. -/
def maxKeySize : Nat := 256

/-- `MAX_VALUE_SIZE`. -/
def maxValueSize : Nat := 256

/-- `CLIENT_REQUEST_QUEUE_CAPACITY`. -/
def clientRequestQueueCapacity : Nat := 64

/-- `WORKER_RESPONSE_QUEUE_CAPACITY`. -/
def workerResponseQueueCapacity : Nat := 64

theorem clientRequestQueueCapacity_pos : 0 < clientRequestQueueCapacity := by decide

theorem workerResponseQueueCapacity_pos : 0 < workerResponseQueueCapacity := by decide

/-- `WORKER_HASH_TABLE_BUCKET_COUNT`. -/
def workerHashTableBucketCount : Nat := 32

end LoadBalancing.Lib
