import Mathlib.Data.List.Sort

/-!
# The batcher's data

`yb::client::internal::Batcher` (`yb/client/batcher.cc`) gathers single-row operations, looks up
the tablet of each, and sends them to the tablet servers as one RPC per run of ops that share a
tablet and an op group.  This file holds the data the batcher reads and writes:

* the statuses it records (`Status`, with the codes of `yb::Status`);
* the user's operation (`YBOperation`), the batcher's record of it (`InFlightOp`) and
  `GetOpGroup` (`getOpGroup`), which decides the kind of RPC an op travels in;
* the batcher's own fields (`Batcher`), the RPCs it creates (`AsyncRpc`), and the pieces of code
  that a thread still has to run (`Frame`).

The batcher is shared by the user's thread, the meta cache's callbacks, the transaction's
callbacks and the RPC completions.  Every piece of code that runs under `mutex_`, and every
unlocked tail that touches shared state, is one atomic step of the model (`ClientBatcher.Step`).
An `InFlightOp` is a shared object: the model keeps all of them in `Batcher.heap` and names each
by its identity, which is the number of ops admitted before it.
-/

namespace ClientBatcher

/-- The codes of `yb::Status`. -/
inductive Code where
  | kOk | kNotFound | kCorruption | kNotSupported | kInvalidArgument | kIOError
  | kAlreadyPresent | kRuntimeError | kNetworkError | kIllegalState | kNotAuthorized | kAborted
  | kRemoteError | kServiceUnavailable | kTimedOut | kUninitialized | kConfigurationError
  | kIncomplete | kEndOfFile | kInvalidCommand | kQLError | kInternalError | kExpired
  | kLeaderNotReadyToServe | kLeaderHasNoLease | kTryAgain | kBusy | kShutdownInProgress
  | kMergeInProgress | kCombined
  deriving DecidableEq, Repr, Inhabited

/-- A `yb::Status`: a code and a message. -/
structure Status where
  code : Code
  message : String
  deriving DecidableEq, Repr, Inhabited

namespace Status

/-- `Status::OK()`. -/
def OK : Status := ⟨.kOk, ""⟩

/-- `Status::ok()`. -/
def ok (s : Status) : Bool := s.code == .kOk

/-- `Status::IsCombined()`. -/
def IsCombined (s : Status) : Bool := s.code == .kCombined

@[simp] theorem ok_OK : OK.ok = true := rfl

end Status

/-- `YBOperation::Type`. -/
inductive OpType where
  | qlRead | qlWrite | redisRead | redisWrite | pgsqlRead | pgsqlWrite
  deriving DecidableEq, Repr, Inhabited

/-- `YBConsistencyLevel`. -/
inductive YBConsistencyLevel where
  | strong | consistentPrefix
  deriving DecidableEq, Repr, Inhabited

/-- What the batcher reads of a user operation (`YBOperation`). -/
structure YBOperation where
  /-- `type()`. -/
  type : OpType
  /-- `read_only()`. -/
  readOnly : Bool
  /-- `yb_consistency_level()`, read only for a QL read (`YBqlReadOp`). -/
  ybConsistencyLevel : YBConsistencyLevel
  /-- `returns_sidecar()`. -/
  returnsSidecar : Bool
  /-- `tablet()`: the address of a tablet the caller already resolved, `0` for none. -/
  tablet : ℕ
  /-- What `GetPartitionKey` produces: the key, or the status it fails with. -/
  partitionKey : Except Status String
  /-- `table()->partition_schema().IsHashPartitioning()`. -/
  hashPartitioning : Bool
  /-- The key whose decoded hash `SetHashCode` was given, if it was called. -/
  hashCode : Option String
  deriving Inhabited

/-- `InFlightOpState`: the two states the batcher gives an op. -/
inductive InFlightOpState where
  | kLookingUpTablet | kBufferedToTabletServer
  deriving DecidableEq, Repr, Inhabited

/-- `InFlightOp`: the batcher's record of one admitted operation. -/
structure InFlightOp where
  /-- `yb_op`. -/
  ybOp : YBOperation
  /-- `partition_key`. -/
  partitionKey : String
  /-- `state`. -/
  state : InFlightOpState
  /-- `tablet.get()`: the address of the op's tablet, `0` while the pointer is null. -/
  tablet : ℕ
  /-- `sequence_number_`. -/
  sequenceNumber : ℕ
  deriving Inhabited

/-- The flags and the transport constant the batcher reads. -/
structure Flags where
  /-- `FLAGS_redis_allow_reads_from_followers`. -/
  redisAllowReadsFromFollowers : Bool
  /-- `FLAGS_combine_batcher_errors`. -/
  combineBatcherErrors : Bool
  /-- `rpc::CallResponse::kMaxSidecarSlices` (defined outside `src/`, so a parameter). -/
  maxSidecarSlices : ℕ

/-- `OpGroup`: its values are declared in the order
`kWrite < kLeaderRead < kConsistentPrefixRead`. -/
inductive OpGroup where
  | kWrite | kLeaderRead | kConsistentPrefixRead
  deriving DecidableEq, Repr, Inhabited

/-- The enum value of an `OpGroup`, which `operator<` compares. -/
def OpGroup.toNat : OpGroup → ℕ
  | .kWrite => 0
  | .kLeaderRead => 1
  | .kConsistentPrefixRead => 2

/-- `IsOkToReadFromFollower`. -/
def isOkToReadFromFollower (f : Flags) (op : InFlightOp) : Bool :=
  op.ybOp.type == .redisRead && f.redisAllowReadsFromFollowers

/-- `IsQLConsistentPrefixRead`. -/
def isQLConsistentPrefixRead (op : InFlightOp) : Bool :=
  op.ybOp.type == .qlRead && op.ybOp.ybConsistencyLevel == .consistentPrefix

/-- `GetOpGroup`. -/
def getOpGroup (f : Flags) (op : InFlightOp) : OpGroup :=
  if !op.ybOp.readOnly then .kWrite
  else if isOkToReadFromFollower f op || isQLConsistentPrefixRead op then .kConsistentPrefixRead
  else .kLeaderRead

theorem getOpGroup_eq_kWrite {f : Flags} {op : InFlightOp} :
    getOpGroup f op = .kWrite ↔ op.ybOp.readOnly = false := by
  unfold getOpGroup; split_ifs <;> simp_all

/-- The RPC classes `FlushBuffer` creates. -/
inductive RpcKind where
  /-- `WriteRpc`. -/
  | writeRpc
  /-- `ReadRpc` with the given consistency level (`STRONG` when none is passed). -/
  | readRpc (consistency : YBConsistencyLevel)
  deriving DecidableEq, Repr

/-- The RPC `FlushBuffer` creates for an op group. -/
def rpcKindOf : OpGroup → RpcKind
  | .kWrite => .writeRpc
  | .kLeaderRead => .readRpc .strong
  | .kConsistentPrefixRead => .readRpc .consistentPrefix

theorem rpcKindOf_eq_iff (g : OpGroup) :
    (rpcKindOf g = .writeRpc ↔ g = .kWrite) ∧
    (rpcKindOf g = .readRpc .consistentPrefix ↔ g = .kConsistentPrefixRead) ∧
    (rpcKindOf g = .readRpc .strong ↔ g = .kLeaderRead) := by
  cases g <;> simp [rpcKindOf]

/-- A `WriteResponsePB_PerRowErrorPB`, its error already converted by `StatusFromPB`. -/
structure PerRowError where
  rowIndex : ℕ
  error : Status
  deriving DecidableEq, Repr

/-- How far the completion of an RPC has got. -/
inductive RpcPhase where
  /-- `SendRpc()` ran; no response yet. -/
  | sent
  /-- `ProcessRpcStatus` passed its check; it records the failed status against every op next. -/
  | failing
  /-- `ProcessWriteResponse` still has these per-row errors to record. -/
  | rowErrors (pending : List PerRowError)
  /-- The critical section of `RemoveInFlightOpsAfterFlushing` is next. -/
  | removing
  /-- Its unlocked tail (`transaction->Flushed`) is next; `CheckForFinishedFlush` follows. -/
  | notifying
  /-- The completion has run. -/
  | done
  deriving DecidableEq, Repr

/-- An RPC created by `FlushBuffer`: its `AsyncRpcData`, its response, and its progress. -/
structure AsyncRpc where
  kind : RpcKind
  /-- The tablet address it was given. -/
  tablet : ℕ
  allowLocalCallsInCurrThread : Bool
  needConsistentRead : Bool
  /-- `ops()`: the ops it carries, in order. -/
  ops : List ℕ
  /-- The status it completed with (`Status::OK()` until it has). -/
  status : Status
  /-- `resp().per_row_errors()` (none for a read). -/
  perRowErrors : List PerRowError
  phase : RpcPhase

/-- The RPC still holds its ops in `ops_`: `RemoveInFlightOpsAfterFlushing` has not run. -/
def AsyncRpc.inFlight (r : AsyncRpc) : Bool :=
  match r.phase with
  | .sent | .failing | .rowErrors _ | .removing => true
  | .notifying | .done => false

/-- The arguments of one `FlushBuffer` call: the tablet, the range of ops, and the two flags. -/
structure FlushBufferCall where
  tablet : ℕ
  ops : List ℕ
  allowLocalCallsInCurrThread : Bool
  needConsistentRead : Bool
  deriving DecidableEq, Repr

/-- A piece of the batcher's code that a thread has started and still has to run.  A thread is
the list of frames it will run, in order. -/
inductive Frame where
  /-- The rest of `Add` after `AddInFlightOp`: the lookup of the op's tablet. -/
  | addTail (op : ℕ)
  /-- `CheckForFinishedFlush()`. -/
  | checkForFinishedFlush
  /-- The unlocked tail of `CheckForFinishedFlush()`, after it set `kFlushed`. -/
  | flushFinished
  /-- `RunCallback(status)`: the move of `flush_callback_` into the runnable reads the callback. -/
  | runCallback (status : Status)
  /-- The rest of `RunCallback(status)`: the move empties `flush_callback_`, and the runnable
  calls the callback the move took; `taken` says whether the read found one. -/
  | runCallbackTail (status : Status) (taken : Bool)
  /-- `FlushBuffersIfReady()`. -/
  | flushBuffersIfReady
  /-- One `FlushBuffer(...)` call of `FlushBuffersIfReady`, after its swap of `ops_queue_`. -/
  | flushBuffer (call : FlushBufferCall)
  deriving DecidableEq, Repr

/-- `Result<RemoteTabletPtr>` as a lookup delivers it. -/
inductive LookupResult where
  | ok (tablet : ℕ)
  | error (status : Status)
  deriving DecidableEq, Repr

/-- What the batcher's trace records, in the order it happens: the lookups' answers, its calls
to the transaction (`Prepare`, `Flushed`), its swaps of `ops_queue_`, and the runs of the flush
callback. -/
inductive Event where
  /-- `TabletLookupFinished(op, result)` took the batcher's lock. -/
  | lookupFinished (op : ℕ) (result : LookupResult)
  /-- `transaction->Prepare(ops_, ...)` returned false. -/
  | prepareDeferred (ops : List ℕ)
  /-- `FlushBuffersIfReady` swapped `taken` out of `ops_queue_`; `prepared` is the `ops_` that
  `transaction->Prepare` returned true for in the same critical section, if there is a
  transaction. -/
  | swap (prepared : Option (List ℕ)) (taken : List ℕ)
  /-- `transaction->Flushed(ops, ..., status)`. -/
  | flushed (ops : List ℕ) (status : Status)
  /-- The flush callback ran with `status`. -/
  | callback (status : Status)
  deriving DecidableEq, Repr

/-- `Batcher::BatcherState`. -/
inductive BatcherState where
  | kGatheringOps | kFlushing | kFlushed | kAborted
  deriving DecidableEq, Repr, Inhabited

/-- A CHECK that fails (the process dies), or a call of an empty `std::function`. -/
inductive CheckFailure where
  /-- `CHECK_GE(timeout, MonoDelta::kZero)` in `SetTimeout`. -/
  | negativeTimeout
  /-- `CHECK_EQ(state_, kGatheringOps)` in `FlushAsync`. -/
  | flushAsyncNotGathering
  /-- `CHECK_EQ(state_, kGatheringOps)` in `AddInFlightOp`. -/
  | addNotGathering
  /-- `CHECK(ops_.insert(op).second)` in `AddInFlightOp`. -/
  | addDuplicate
  /-- `CHECK_EQ(op->state, kLookingUpTablet)` in `TabletLookupFinished`. -/
  | lookupNotLookingUp
  /-- `CHECK(*lookup_result)` in `TabletLookupFinished`. -/
  | lookupNullTablet
  /-- `CHECK_EQ(1, ops_.erase(in_flight_op))` in `MarkInFlightOpFailedUnlocked`. -/
  | markFailedNotInFlight
  /-- `CHECK(begin != end)` in `FlushBuffer`. -/
  | flushBufferEmpty
  /-- `CHECK_EQ(state_, kFlushing)` in `ProcessRpcStatus`. -/
  | rpcNotFlushing
  /-- `CHECK_EQ(1, ops_.erase(op))` in `RemoveInFlightOpsAfterFlushing`. -/
  | removeNotInFlight
  /-- The runnable of `RunCallback` calls an empty callback (`std::bad_function_call`). -/
  | emptyFlushCallback
  /-- `LOG(FATAL) << "ops_ not empty"` in `~Batcher`. -/
  | opsNotEmpty
  /-- `CHECK(state_ == kFlushed || state_ == kAborted)` in `~Batcher`. -/
  | destroyBadState
  deriving DecidableEq, Repr

/-- The batcher's fields, and the state of the collaborators it waits on. -/
structure Batcher where
  /-- `state_`. -/
  state : BatcherState
  /-- `ops_`: the admitted ops not yet finished. -/
  ops : List ℕ
  /-- `ops_queue_`: ops whose lookup succeeded, waiting for `FlushBuffersIfReady`. -/
  opsQueue : List ℕ
  /-- `outstanding_lookups_`. -/
  outstandingLookups : ℤ
  /-- `next_op_sequence_number_`, also the number of ops admitted so far. -/
  nextOpSequenceNumber : ℕ
  /-- `flush_callback_` holds a callback. -/
  flushCallback : Bool
  /-- `combined_error_`. -/
  combinedError : Status
  /-- `had_errors_`. -/
  hadErrors : Bool
  /-- `timeout_` in nanoseconds; `none` while the `MonoDelta` is not initialized. -/
  timeout : Option ℤ
  /-- `deadline_`, set by `FlushAsync`. -/
  deadline : Option ℤ
  /-- `transaction_` is set. -/
  transaction : Bool
  /-- `force_consistent_read_`. -/
  forceConsistentRead : Bool
  /-- `allow_local_calls_in_curr_thread_`. -/
  allowLocalCallsInCurrThread : Bool
  /-- Every `InFlightOp`, by identity. -/
  heap : ℕ → InFlightOp
  /-- The ops whose `LookupTabletByKey` has not called back yet. -/
  lookups : List ℕ
  /-- The `TransactionReady` callbacks the transaction holds from deferred `Prepare` calls. -/
  waiters : ℕ
  /-- The RPCs `FlushBuffer` created, in order. -/
  rpcs : List AsyncRpc
  /-- The threads that are inside the batcher's code. -/
  threads : List (List Frame)
  /-- The `ErrorCollector`: every `AddError(op, status)`, in order. -/
  errors : List (ℕ × Status)
  /-- The calls to the collaborators, in order. -/
  trace : List Event

namespace Batcher

/-- The batcher as the constructor leaves it. -/
def init (transaction forceConsistentRead allowLocalCallsInCurrThread : Bool) : Batcher where
  state := .kGatheringOps
  ops := []
  opsQueue := []
  outstandingLookups := 0
  nextOpSequenceNumber := 0
  flushCallback := false
  combinedError := Status.OK
  hadErrors := false
  timeout := none
  deadline := none
  transaction := transaction
  forceConsistentRead := forceConsistentRead
  allowLocalCallsInCurrThread := allowLocalCallsInCurrThread
  heap := fun _ => default
  lookups := []
  waiters := 0
  rpcs := []
  threads := []
  errors := []
  trace := []

/-- All the frames the threads still have to run. -/
def frames (s : Batcher) : List Frame := s.threads.flatten

end Batcher

end ClientBatcher
