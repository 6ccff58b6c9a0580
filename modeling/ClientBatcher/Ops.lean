import ClientBatcher.Plan

/-!
# The batcher's critical sections

One definition per function of `Batcher` (`yb/client/batcher.cc`), or per atomic piece of one:
each critical section under `mutex_` is a function of the batcher's fields, and so is each
unlocked tail that reads or writes them.  A function whose code has a CHECK returns
`Except CheckFailure`; one that goes on in other code also returns the frames its thread runs
next (`ClientBatcher.Step` puts the pieces together).

Alongside each function: the lemmas that say what it changes, so that the invariant proofs never
unfold it.  A function that changes few fields gets a *frame equation*
`s' = { s with f₁ := s'.f₁, … }`: every other field is unchanged.
-/

namespace ClientBatcher

/-- The response of an RPC, as its completion receives it; a read has no per-row errors. -/
def AsyncRpc.respond (status : Status) (errors : List PerRowError) (rpc : AsyncRpc) : AsyncRpc :=
  let errors := if rpc.kind = .writeRpc then errors else []
  { rpc with
    status := status
    perRowErrors := errors
    phase := if status.ok then .rowErrors errors else .failing }

namespace Batcher

variable (f : Flags)

/-- `kErrorReachingOutToTServersMsg`. -/
def kErrorReachingOutToTServersMsg : String :=
  "Errors occured while reaching out to the tablet servers"

/-- The heap with the record of `op` changed by `g`. -/
@[simps -fullyApplied]
def updateOp (s : Batcher) (op : ℕ) (g : InFlightOp → InFlightOp) : Batcher :=
  { s with heap := Function.update s.heap op (g (s.heap op)) }

/-- The RPC at index `r` replaced by `rpc`. -/
@[simps -fullyApplied]
def setRpc (s : Batcher) (r : ℕ) (rpc : AsyncRpc) : Batcher :=
  { s with rpcs := s.rpcs.set r rpc }

/-- A critical section that succeeds, with the frames its thread runs after it. -/
theorem map_pair_ok {α : Type} {x : Except CheckFailure α} {g : α → List Frame} {t : α}
    {k : List Frame} : x.map (fun t => (t, g t)) = .ok (t, k) ↔ x = .ok t ∧ k = g t := by
  cases x with
  | error => simp [Except.map]
  | ok a =>
    simp only [Except.map, Except.ok.injEq, Prod.mk.injEq]
    constructor <;> rintro ⟨rfl, rfl⟩ <;> simp

/-! ### Errors -/

/-- The rule of `CombineErrorUnlocked` for `combined_error_` when errors are combined. -/
def combineError (combined status : Status) : Status :=
  if combined.ok then status
  else if !combined.IsCombined && combined.code != status.code then
    ⟨.kCombined, "Multiple failures"⟩
  else combined

/-- `CombineErrorUnlocked(op, status)`. -/
@[simps -fullyApplied]
def combineErrorUnlocked (op : ℕ) (status : Status) (s : Batcher) : Batcher :=
  { s with
    errors := s.errors ++ [(op, status)]
    combinedError :=
      if f.combineBatcherErrors then combineError s.combinedError status else s.combinedError
    hadErrors := true }

theorem foldl_combineErrorUnlocked (st : Status) : ∀ (l : List ℕ) (s : Batcher),
    l.foldl (fun s op => combineErrorUnlocked f op st s) s =
      { s with
        errors := s.errors ++ l.map (·, st)
        combinedError := l.foldl (fun c _ =>
          if f.combineBatcherErrors then combineError c st else c) s.combinedError
        hadErrors := s.hadErrors || !l.isEmpty }
  | [], s => by simp
  | op :: l, s => by
    rw [List.foldl_cons, foldl_combineErrorUnlocked st l]; simp

/-- `MarkInFlightOpFailedUnlocked(op, status)`: `CHECK_EQ(1, ops_.erase(op))`, then the error. -/
def markInFlightOpFailedUnlocked (op : ℕ) (status : Status) (s : Batcher) :
    Except CheckFailure Batcher :=
  if op ∈ s.ops then .ok (combineErrorUnlocked f op status { s with ops := s.ops.erase op })
  else .error .markFailedNotInFlight


variable {f}

theorem markInFlightOpFailedUnlocked_ok {op : ℕ} {st : Status} {s s' : Batcher} :
    markInFlightOpFailedUnlocked f op st s = .ok s' ↔
      op ∈ s.ops ∧ s' = combineErrorUnlocked f op st { s with ops := s.ops.erase op } := by
  unfold markInFlightOpFailedUnlocked; split_ifs <;> simp [*, eq_comm]

theorem count_filter_ite (p : ℕ → Bool) (l : List ℕ) (a : ℕ) :
    (l.filter p).count a = if p a then l.count a else 0 := by
  split_ifs with h
  · exact List.count_filter h
  · exact List.count_eq_zero.2 fun hm => h (List.mem_filter.1 hm).2

theorem count_erase_add {l : List ℕ} {b : ℕ} (hb : b ∈ l) (a : ℕ) :
    (l.erase b).count a + (if b = a then 1 else 0) = l.count a := by
  by_cases h : b = a
  · subst h; have := List.count_pos_iff.2 hb; simp; omega
  · simp [h, List.count_erase_of_ne (Ne.symm h)]

variable (f)

/-- The loop of `Abort` that marks every op of `to_abort` failed. -/
def markAllFailed (status : Status) : List ℕ → Batcher → Except CheckFailure Batcher
  | [], s => .ok s
  | op :: rest, s =>
    match markInFlightOpFailedUnlocked f op status s with
    | .ok s' => markAllFailed status rest s'
    | .error e => .error e


variable {f}

/-- `markAllFailed` changes `ops_` and the error fields only, and removes each op of the list
once. -/
theorem markAllFailed_ok {st : Status} : ∀ {l : List ℕ} {s s' : Batcher},
    markAllFailed f st l s = .ok s' →
      ∃ ops errors ce he,
        s' = { s with ops := ops, errors := errors, combinedError := ce, hadErrors := he } ∧
          ∀ x, ops.count x + l.count x = s.ops.count x
  | [], s, s', h => by
    cases h; exact ⟨s.ops, s.errors, s.combinedError, s.hadErrors, rfl, by simp⟩
  | op :: rest, s, s', h => by
    simp only [markAllFailed] at h
    split at h
    · rename_i s₁ h₁
      obtain ⟨hop, rfl⟩ := markInFlightOpFailedUnlocked_ok.1 h₁
      obtain ⟨ops, errors, ce, he, rfl, hc⟩ := markAllFailed_ok h
      refine ⟨ops, errors, ce, he, rfl, fun x => ?_⟩
      have := hc x; have := count_erase_add hop x
      simp only [combineErrorUnlocked_ops, List.count_cons, beq_iff_eq] at *
      split_ifs at * <;> omega
    · cases h

/-- The errors `markAllFailed` records: one per op of the list, with the status. -/
theorem markAllFailed_errors {st : Status} : ∀ {l : List ℕ} {s s' : Batcher},
    markAllFailed f st l s = .ok s' →
      s'.errors = s.errors ++ l.map (·, st) ∧ s'.hadErrors = (s.hadErrors || !l.isEmpty) ∧
        (l = [] → s'.combinedError = s.combinedError)
  | [], s, s', h => by cases h; simp
  | op :: rest, s, s', h => by
    simp only [markAllFailed] at h
    split at h
    · rename_i s₁ h₁
      obtain ⟨-, rfl⟩ := markInFlightOpFailedUnlocked_ok.1 h₁
      obtain ⟨h1, h2, -⟩ := markAllFailed_errors h
      simp [h1, h2]
    · cases h

variable (f)

/-- The status `CheckForFinishedFlush` hands to the flush callback. -/
def flushStatus (s : Batcher) : Status :=
  if !s.combinedError.ok then s.combinedError
  else if s.hadErrors then ⟨.kIOError, kErrorReachingOutToTServersMsg⟩
  else Status.OK

/-! ### Admission and lookups -/

/-- `SetTimeout(timeout)`. -/
def setTimeout (timeout : ℤ) (s : Batcher) : Except CheckFailure Batcher :=
  if timeout < 0 then .error .negativeTimeout else .ok { s with timeout := some timeout }

/-- `ComputeDeadlineUnlocked()` at time `now`: the timeout, or 60 seconds when it is not set. -/
def computeDeadlineUnlocked (now : ℤ) (s : Batcher) : ℤ :=
  now + s.timeout.getD 60000000000

/-- `HasPendingOperations()`. -/
def hasPendingOperations (s : Batcher) : Bool := !s.ops.isEmpty

/-- `CountBufferedOperations()`: the ops of a batch still gathering them; none once it has
started to flush. -/
def countBufferedOperations (s : Batcher) : ℕ :=
  if s.state = .kGatheringOps then s.ops.length else 0

/-- The `SetHashCode` calls of `Add`, on a table with hash partitioning. -/
def setHashCode (key : String) (op : YBOperation) : YBOperation :=
  if !op.hashPartitioning then op
  else match op.type with
    | .qlRead | .pgsqlRead => if key.isEmpty then op else { op with hashCode := some key }
    | .qlWrite | .redisRead | .redisWrite | .pgsqlWrite => { op with hashCode := some key }

/-- What the critical section of `AddInFlightOp(op)` writes once its CHECKs pass: the op gets
the next sequence number, which also names it, goes into `ops_`, and `++outstanding_lookups_`. -/
@[simps -fullyApplied]
def insertOp (op : InFlightOp) (s : Batcher) : Batcher :=
  { s with
    ops := s.ops ++ [s.nextOpSequenceNumber]
    heap := Function.update s.heap s.nextOpSequenceNumber
      { op with sequenceNumber := s.nextOpSequenceNumber }
    nextOpSequenceNumber := s.nextOpSequenceNumber + 1
    outstandingLookups := s.outstandingLookups + 1 }

/-- The critical section of `AddInFlightOp(op)`; the new op is named by its sequence number. -/
def addInFlightOp (op : InFlightOp) (s : Batcher) : Except CheckFailure Batcher :=
  if s.state ≠ .kGatheringOps then .error .addNotGathering
  else if s.nextOpSequenceNumber ∈ s.ops then .error .addDuplicate
  else .ok (s.insertOp op)

/-- `Add(yb_op)` up to the end of `AddInFlightOp`.  Before the critical section `Add` touches only
the new op, so the two are one step.  A key that `GetPartitionKey` rejects is returned to the
caller and leaves the batcher as it was. -/
def add (yb : YBOperation) (s : Batcher) : Except CheckFailure (Batcher × List Frame) :=
  match yb.partitionKey with
  | .error _ => .ok (s, [])
  | .ok key =>
    (addInFlightOp ⟨setHashCode key yb, key, .kLookingUpTablet, 0, 0⟩ s).map
      fun s' => (s', [.addTail s.nextOpSequenceNumber])

variable {f}

theorem add_ok {yb : YBOperation} {s s' : Batcher} {k : List Frame} (h : s.add yb = .ok (s', k)) :
    (∃ e, yb.partitionKey = .error e ∧ s' = s ∧ k = []) ∨
    ∃ key, yb.partitionKey = .ok key ∧ s.state = .kGatheringOps ∧ s.nextOpSequenceNumber ∉ s.ops ∧
      k = [.addTail s.nextOpSequenceNumber] ∧
      s' = s.insertOp ⟨setHashCode key yb, key, .kLookingUpTablet, 0, 0⟩ := by
  unfold add at h
  split at h
  · rename_i e he
    simp only [Except.ok.injEq, Prod.mk.injEq] at h; exact .inl ⟨e, he, h.1.symm, h.2.symm⟩
  · rename_i key hkey
    unfold addInFlightOp at h
    split_ifs at h with h₁ h₂
    · cases h
    · cases h
    · simp only [Except.map, Except.ok.injEq, Prod.mk.injEq] at h
      exact .inr ⟨key, hkey, not_not.1 h₁, h₂, h.2.symm, h.1.symm⟩

variable (f)

/-- The part of the critical section of `TabletLookupFinished(op, result)` that runs in every
case: the call is recorded, a found tablet is stored in the op, and `--outstanding_lookups_`. -/
@[simps -fullyApplied]
def recordLookup (op : ℕ) (result : LookupResult) (s : Batcher) : Batcher :=
  { s with
    trace := s.trace ++ [Event.lookupFinished op result]
    heap := match result with
      | .ok t => Function.update s.heap op { s.heap op with tablet := t }
      | .error _ => s.heap
    outstandingLookups := s.outstandingLookups - 1 }

@[simp] theorem recordLookup_heap_of_ne {op x : ℕ} (r : LookupResult) (s : Batcher) (hx : x ≠ op) :
    (s.recordLookup op r).heap x = s.heap x := by
  cases r <;> simp [Function.update_apply, hx]

/-- A lookup changes no field of an op but its tablet. -/
theorem recordLookup_heap_eq_with_tablet (op x : ℕ) (r : LookupResult) (s : Batcher) :
    ∃ t, (s.recordLookup op r).heap x = { s.heap x with tablet := t } := by
  cases r with
  | ok t =>
    by_cases hx : x = op
    · exact ⟨t, by simp [hx]⟩
    · exact ⟨(s.heap x).tablet, by simp [Function.update_apply, hx]⟩
  | error => exact ⟨(s.heap x).tablet, rfl⟩

@[simp] theorem recordLookup_heap_state (op x : ℕ) (r : LookupResult) (s : Batcher) :
    ((s.recordLookup op r).heap x).state = (s.heap x).state := by
  obtain ⟨t, ht⟩ := recordLookup_heap_eq_with_tablet op x r s; rw [ht]

@[simp] theorem recordLookup_heap_ybOp (op x : ℕ) (r : LookupResult) (s : Batcher) :
    ((s.recordLookup op r).heap x).ybOp = (s.heap x).ybOp := by
  obtain ⟨t, ht⟩ := recordLookup_heap_eq_with_tablet op x r s; rw [ht]

@[simp] theorem recordLookup_heap_sequenceNumber (op x : ℕ) (r : LookupResult) (s : Batcher) :
    ((s.recordLookup op r).heap x).sequenceNumber = (s.heap x).sequenceNumber := by
  obtain ⟨t, ht⟩ := recordLookup_heap_eq_with_tablet op x r s; rw [ht]

/-- The critical section of `TabletLookupFinished(op, result)`, with the frames its thread runs
after it: none when the batch was aborted, else `CheckForFinishedFlush` after a failed lookup,
and `FlushBuffersIfReady`. -/
def tabletLookupFinished (op : ℕ) (result : LookupResult) (s : Batcher) :
    Except CheckFailure (Batcher × List Frame) :=
  let s := s.recordLookup op result
  if s.state = .kAborted then
    (markInFlightOpFailedUnlocked f op ⟨.kAborted, "Batch aborted"⟩ s).map (·, [])
  else match result with
    | .ok t =>
      if (s.heap op).state ≠ .kLookingUpTablet then .error .lookupNotLookingUp
      else if t = 0 then .error .lookupNullTablet
      else .ok ({ s.updateOp op fun o => { o with state := .kBufferedToTabletServer } with
        opsQueue := s.opsQueue ++ [op] }, [.flushBuffersIfReady])
    | .error st =>
      (markInFlightOpFailedUnlocked f op st s).map
        (·, [.checkForFinishedFlush, .flushBuffersIfReady])

variable {f}

theorem tabletLookupFinished_ok {op : ℕ} {r : LookupResult} {s s' : Batcher} {k : List Frame}
    (h : s.tabletLookupFinished f op r = .ok (s', k)) :
    (s.state = .kAborted ∧ op ∈ s.ops ∧ k = [] ∧
      s' = combineErrorUnlocked f op ⟨.kAborted, "Batch aborted"⟩
        { s.recordLookup op r with ops := s.ops.erase op }) ∨
    (s.state ≠ .kAborted ∧ ∃ t, r = .ok t ∧ t ≠ 0 ∧ (s.heap op).state = .kLookingUpTablet ∧
      k = [.flushBuffersIfReady] ∧
      s' = { (s.recordLookup op r).updateOp op fun o => { o with state := .kBufferedToTabletServer }
        with opsQueue := s.opsQueue ++ [op] }) ∨
    (s.state ≠ .kAborted ∧ ∃ st, r = .error st ∧ op ∈ s.ops ∧
      k = [.checkForFinishedFlush, .flushBuffersIfReady] ∧
      s' = combineErrorUnlocked f op st { s.recordLookup op r with ops := s.ops.erase op }) := by
  unfold tabletLookupFinished at h
  simp only [recordLookup_state, recordLookup_ops] at h
  by_cases ha : s.state = .kAborted
  · simp only [ha, if_true] at h
    obtain ⟨hm, rfl⟩ := map_pair_ok.1 h
    obtain ⟨hop, rfl⟩ := markInFlightOpFailedUnlocked_ok.1 hm
    exact .inl ⟨ha, hop, rfl, rfl⟩
  · simp only [ha, if_false] at h
    cases r with
    | ok t =>
      simp only at h
      split_ifs at h with h₁ h₂
      simp only [Except.ok.injEq, Prod.mk.injEq] at h
      obtain ⟨rfl, rfl⟩ := h
      refine .inr (.inl ⟨ha, t, rfl, h₂, ?_, rfl, rfl⟩)
      simpa [Function.update_apply] using not_not.1 h₁
    | error st =>
      obtain ⟨hm, rfl⟩ := map_pair_ok.1 h
      obtain ⟨hop, rfl⟩ := markInFlightOpFailedUnlocked_ok.1 hm
      exact .inr (.inr ⟨ha, st, rfl, hop, rfl, rfl⟩)

variable (f)

/-- The rest of `Add` after `AddInFlightOp`: a tablet already attached to the op goes straight to
`TabletLookupFinished`; otherwise the meta cache is asked and will call back. -/
def addTail (op : ℕ) (s : Batcher) : Except CheckFailure (Batcher × List Frame) :=
  if (s.heap op).ybOp.tablet ≠ 0 then tabletLookupFinished f op (.ok (s.heap op).ybOp.tablet) s
  else .ok ({ s with lookups := s.lookups ++ [op] }, [])

variable {f}

theorem addTail_ok {op : ℕ} {s s' : Batcher} {k : List Frame} (h : s.addTail f op = .ok (s', k)) :
    ((s.heap op).ybOp.tablet ≠ 0 ∧
      s.tabletLookupFinished f op (.ok (s.heap op).ybOp.tablet) = .ok (s', k)) ∨
    ((s.heap op).ybOp.tablet = 0 ∧ k = [] ∧ s' = { s with lookups := s.lookups ++ [op] }) := by
  unfold addTail at h
  split_ifs at h with ht
  · exact .inl ⟨ht, h⟩
  · simp only [Except.ok.injEq, Prod.mk.injEq] at h
    exact .inr ⟨not_not.1 ht, h.2.symm, h.1.symm⟩

variable (f)

/-! ### Flushing -/

/-- The critical section of `FlushAsync()`, then its two calls. -/
def flushAsync (now : ℤ) (s : Batcher) : Except CheckFailure (Batcher × List Frame) :=
  if s.state ≠ .kGatheringOps then .error .flushAsyncNotGathering
  else .ok ({ s with
      state := .kFlushing
      flushCallback := true
      deadline := some (s.computeDeadlineUnlocked now) },
    [.checkForFinishedFlush, .flushBuffersIfReady])

variable {f}

theorem flushAsync_ok {now : ℤ} {s s' : Batcher} {k : List Frame}
    (h : s.flushAsync now = .ok (s', k)) :
    s.state = .kGatheringOps ∧ k = [.checkForFinishedFlush, .flushBuffersIfReady] ∧
      s' = { s with
        state := .kFlushing
        flushCallback := true
        deadline := some (s.computeDeadlineUnlocked now) } := by
  unfold flushAsync at h
  split_ifs at h with hs
  simp only [Except.ok.injEq, Prod.mk.injEq] at h
  exact ⟨not_not.1 hs, h.2.symm, h.1.symm⟩

variable (f)

/-- The critical section of `CheckForFinishedFlush()`, then its unlocked tail if it set
`kFlushed`. -/
def checkForFinishedFlush (s : Batcher) : Batcher × List Frame :=
  if s.state ≠ .kFlushing ∨ s.ops ≠ [] then (s, [])
  else ({ s with state := .kFlushed }, [.flushFinished])

/-- `CheckForFinishedFlush` changes nothing, or moves a flush with no op left in `ops_` to
`kFlushed` and calls `FlushFinished`. -/
theorem checkForFinishedFlush_cases {s sd : Batcher} {k : List Frame}
    (h : s.checkForFinishedFlush = (sd, k)) :
    (s.state ≠ .kFlushing ∨ s.ops ≠ []) ∧ sd = s ∧ k = [] ∨
    s.state = .kFlushing ∧ s.ops = [] ∧ sd = { s with state := .kFlushed } ∧
      k = [.flushFinished] := by
  unfold checkForFinishedFlush at h
  split_ifs at h with hc <;> obtain ⟨rfl, rfl⟩ := Prod.mk.inj h
  · exact .inl ⟨hc, rfl, rfl⟩
  · push_neg at hc
    exact .inr ⟨hc.1, hc.2, rfl, rfl⟩

/-- `RunCallback(status)` up to the middle of the move of `flush_callback_` into the runnable:
the move has read the callback and not yet emptied `flush_callback_`.  No lock is held, so
another `RunCallback` can read the same callback before this one empties it. -/
def runCallback (status : Status) (s : Batcher) : Batcher × List Frame :=
  (s, [.runCallbackTail status s.flushCallback])

/-- The rest of `RunCallback(status)`: the move empties `flush_callback_`, and the runnable calls
the callback the move took (`taken`); an empty one throws `std::bad_function_call`. -/
def runCallbackTail (status : Status) (taken : Bool) (s : Batcher) :
    Except CheckFailure Batcher :=
  if taken then .ok { s with flushCallback := false, trace := s.trace ++ [Event.callback status] }
  else .error .emptyFlushCallback

theorem runCallbackTail_ok {st : Status} {taken : Bool} {s s' : Batcher} :
    s.runCallbackTail st taken = .ok s' ↔ taken = true ∧
      s' = { s with flushCallback := false, trace := s.trace ++ [Event.callback st] } := by
  unfold runCallbackTail; split_ifs <;> simp [*, eq_comm]

/-- `FlushBuffersIfReady()`: its critical section, then the sort and scan of its local list,
which give the `FlushBuffer` calls its thread makes next.  `prepared` is what
`transaction->Prepare` returns. -/
def flushBuffersIfReady (prepared : Bool) (s : Batcher) : Batcher × List Frame :=
  if s.state ≠ .kFlushing then (s, [])
  else if s.outstandingLookups ≠ 0 then (s, [])
  else if s.transaction ∧ ¬prepared then
    ({ s with waiters := s.waiters + 1, trace := s.trace ++ [Event.prepareDeferred s.ops] }, [])
  else
    ({ s with
        opsQueue := []
        trace := s.trace ++ [Event.swap (if s.transaction then some s.ops else none) s.opsQueue] },
      (planFlush f s.heap (s.forceConsistentRead || s.transaction) s.allowLocalCallsInCurrThread
        s.opsQueue).map .flushBuffer)

variable {f} in
/-- `FlushBuffersIfReady` changes nothing; or, in a transaction that `Prepare` defers, it waits;
or it swaps `ops_queue_` out and makes one `FlushBuffer` call per run of its plan. -/
theorem flushBuffersIfReady_cases {p : Bool} {s sd : Batcher} {k : List Frame}
    (h : s.flushBuffersIfReady f p = (sd, k)) :
    (s.state ≠ .kFlushing ∨ s.outstandingLookups ≠ 0) ∧ sd = s ∧ k = [] ∨
    s.state = .kFlushing ∧ s.outstandingLookups = 0 ∧ s.transaction = true ∧ p = false ∧
      sd = { s with waiters := s.waiters + 1, trace := s.trace ++ [Event.prepareDeferred s.ops] } ∧
      k = [] ∨
    s.state = .kFlushing ∧ s.outstandingLookups = 0 ∧ (s.transaction = true → p = true) ∧
      sd = { s with
        opsQueue := []
        trace := s.trace ++ [Event.swap (if s.transaction then some s.ops else none) s.opsQueue] } ∧
      k = (planFlush f s.heap (s.forceConsistentRead || s.transaction)
        s.allowLocalCallsInCurrThread s.opsQueue).map .flushBuffer := by
  unfold flushBuffersIfReady at h
  split_ifs at h with h₁ h₂ h₃ h₄ <;> obtain ⟨rfl, rfl⟩ := Prod.mk.inj h
  · exact .inl ⟨.inl h₁, rfl, rfl⟩
  · exact .inl ⟨.inr h₂, rfl, rfl⟩
  · simp only [Bool.not_eq_true] at h₃
    exact .inr (.inl ⟨not_not.1 h₁, not_not.1 h₂, h₃.1, h₃.2, rfl, rfl⟩)
  all_goals
    simp only [not_and, not_not] at h₃
    exact .inr (.inr ⟨not_not.1 h₁, not_not.1 h₂, h₃, by simp [h₄], rfl⟩)

/-- `FlushBuffer(...)`: the RPC for the call's range, of the kind of its first op's group. -/
def flushBuffer (c : FlushBufferCall) (s : Batcher) : Except CheckFailure Batcher :=
  match c.ops with
  | [] => .error .flushBufferEmpty
  | first :: _ =>
    .ok { s with
      rpcs := s.rpcs ++ [⟨rpcKindOf (getOpGroup f (s.heap first)), c.tablet,
        c.allowLocalCallsInCurrThread, c.needConsistentRead, c.ops, Status.OK, [], .sent⟩] }

variable {f}

theorem flushBuffer_ok {c : FlushBufferCall} {s s' : Batcher} :
    s.flushBuffer f c = .ok s' ↔ ∃ first rest, c.ops = first :: rest ∧
      s' = { s with
        rpcs := s.rpcs ++ [⟨rpcKindOf (getOpGroup f (s.heap first)), c.tablet,
          c.allowLocalCallsInCurrThread, c.needConsistentRead, c.ops, Status.OK, [], .sent⟩] } := by
  unfold flushBuffer
  split <;> simp [*, eq_comm]

variable (f)

/-! ### Completion of an RPC -/

/-- The start of `ProcessWriteResponse`/`ProcessReadResponse`: `ProcessRpcStatus`'s unlocked
`CHECK_EQ(state_, kFlushing)`. -/
def processRpcStatus (r : ℕ) (rpc : AsyncRpc) (status : Status) (errors : List PerRowError)
    (s : Batcher) : Except CheckFailure Batcher :=
  if s.state ≠ .kFlushing then .error .rpcNotFlushing
  else .ok (s.setRpc r (rpc.respond status errors))

theorem processRpcStatus_ok {r : ℕ} {rpc : AsyncRpc} {st : Status} {errs : List PerRowError}
    {s s' : Batcher} :
    s.processRpcStatus r rpc st errs = .ok s' ↔
      s.state = .kFlushing ∧ s' = s.setRpc r (rpc.respond st errs) := by
  unfold processRpcStatus; split_ifs <;> simp_all [eq_comm]

/-- The critical section of `RemoveInFlightOpsAfterFlushing`: `CHECK_EQ(1, ops_.erase(op))` for
every op of the RPC. -/
def removeInFlightOpsAfterFlushing : List ℕ → Batcher → Except CheckFailure Batcher
  | [], s => .ok s
  | op :: rest, s =>
    if op ∈ s.ops then removeInFlightOpsAfterFlushing rest { s with ops := s.ops.erase op }
    else .error .removeNotInFlight

/-- `RemoveInFlightOpsAfterFlushing` changes `ops_` only, and removes each op of the RPC once. -/
theorem removeInFlightOpsAfterFlushing_ok : ∀ {l : List ℕ} {s s' : Batcher},
    removeInFlightOpsAfterFlushing l s = .ok s' →
      ∃ ops, s' = { s with ops := ops } ∧ ∀ x, ops.count x + l.count x = s.ops.count x
  | [], s, s', h => by cases h; exact ⟨s.ops, rfl, by simp⟩
  | op :: rest, s, s', h => by
    unfold removeInFlightOpsAfterFlushing at h
    split_ifs at h with hop
    obtain ⟨ops, rfl, hc⟩ := removeInFlightOpsAfterFlushing_ok h
    refine ⟨ops, rfl, fun x => ?_⟩
    have := hc x; have := count_erase_add hop x
    simp only [List.count_cons, beq_iff_eq] at *
    split_ifs at * <;> omega

/-- The next atomic piece of the completion of RPC `r`, and the frames it starts. -/
def rpcStep (r : ℕ) (rpc : AsyncRpc) (s : Batcher) :
    Option (Except CheckFailure (Batcher × List Frame)) :=
  match rpc.phase with
  | .sent | .done => none
  | .failing =>
    -- the critical section of `ProcessRpcStatus` for a failed RPC
    some (.ok ((rpc.ops.foldl (fun s op => combineErrorUnlocked f op rpc.status s) s).setRpc r
      { rpc with phase := .rowErrors rpc.perRowErrors }, []))
  | .rowErrors [] => some (.ok (s.setRpc r { rpc with phase := .removing }, []))
  | .rowErrors (e :: es) =>
    -- one per-row error of `ProcessWriteResponse`; an out-of-range index is logged and skipped
    let s := if h : e.rowIndex < rpc.ops.length then
      combineErrorUnlocked f rpc.ops[e.rowIndex] e.error s else s
    some (.ok (s.setRpc r { rpc with phase := .rowErrors es }, []))
  | .removing =>
    some ((removeInFlightOpsAfterFlushing rpc.ops s).map
      fun s => (s.setRpc r { rpc with phase := .notifying }, []))
  | .notifying =>
    -- the unlocked tail: `transaction->Flushed(ops, ...)`, then `CheckForFinishedFlush()`
    let s := if s.transaction then { s with trace := s.trace ++ [Event.flushed rpc.ops rpc.status] }
      else s
    some (.ok (s.setRpc r { rpc with phase := .done }, [.checkForFinishedFlush]))

variable {f}

theorem rpcStep_ok {r : ℕ} {rpc : AsyncRpc} {s s' : Batcher} {k : List Frame}
    (h : s.rpcStep f r rpc = some (.ok (s', k))) :
    (rpc.phase = .failing ∧ k = [] ∧
      s' = (rpc.ops.foldl (fun s op => combineErrorUnlocked f op rpc.status s) s).setRpc r
        { rpc with phase := .rowErrors rpc.perRowErrors }) ∨
    (rpc.phase = .rowErrors [] ∧ k = [] ∧ s' = s.setRpc r { rpc with phase := .removing }) ∨
    (∃ e es, rpc.phase = .rowErrors (e :: es) ∧ k = [] ∧
      s' = (if h : e.rowIndex < rpc.ops.length then
        combineErrorUnlocked f rpc.ops[e.rowIndex] e.error s else s).setRpc r
          { rpc with phase := .rowErrors es }) ∨
    (rpc.phase = .removing ∧ k = [] ∧ ∃ s₁, removeInFlightOpsAfterFlushing rpc.ops s = .ok s₁ ∧
      s' = s₁.setRpc r { rpc with phase := .notifying }) ∨
    (rpc.phase = .notifying ∧ k = [.checkForFinishedFlush] ∧
      s' = (if s.transaction then { s with trace := s.trace ++ [Event.flushed rpc.ops rpc.status] }
        else s).setRpc r { rpc with phase := .done }) := by
  unfold rpcStep at h
  split at h
  · cases h
  · cases h
  · rename_i hp; simp only [Option.some.injEq, Except.ok.injEq, Prod.mk.injEq] at h
    exact .inl ⟨hp, h.2.symm, h.1.symm⟩
  · rename_i hp; simp only [Option.some.injEq, Except.ok.injEq, Prod.mk.injEq] at h
    exact .inr (.inl ⟨hp, h.2.symm, h.1.symm⟩)
  · rename_i e es hp; simp only [Option.some.injEq, Except.ok.injEq, Prod.mk.injEq] at h
    exact .inr (.inr (.inl ⟨e, es, hp, h.2.symm, h.1.symm⟩))
  · rename_i hp
    cases hx : removeInFlightOpsAfterFlushing rpc.ops s
    · simp [hx, Except.map] at h
    · simp only [hx, Except.map, Option.some.injEq, Except.ok.injEq, Prod.mk.injEq] at h
      exact .inr (.inr (.inr (.inl ⟨hp, h.2.symm, _, rfl, h.1.symm⟩)))
  · rename_i hp; simp only [Option.some.injEq, Except.ok.injEq, Prod.mk.injEq] at h
    exact .inr (.inr (.inr (.inr ⟨hp, h.2.symm, h.1.symm⟩)))

/-- A piece of an RPC's completion changes `ops_`, the error fields and the RPC's phase, and at
most adds the `Flushed` call to the trace; its thread goes on with at most
`CheckForFinishedFlush`. -/
theorem rpcStep_eq {r : ℕ} {rpc : AsyncRpc} {s s' : Batcher} {k : List Frame}
    (h : s.rpcStep f r rpc = some (.ok (s', k))) :
    ∃ ops errors ce he evs phase,
      s' = { s with
        ops := ops
        errors := errors
        combinedError := ce
        hadErrors := he
        trace := s.trace ++ evs
        rpcs := s.rpcs.set r { rpc with phase := phase } } ∧
      (evs = [] ∨ evs = [.flushed rpc.ops rpc.status]) ∧
      (k = [] ∨ k = [.checkForFinishedFlush]) := by
  rcases rpcStep_ok h with ⟨-, rfl, rfl⟩ | ⟨-, rfl, rfl⟩ | ⟨e, es, -, rfl, rfl⟩ |
    ⟨-, rfl, s₁, h₁, rfl⟩ | ⟨-, rfl, rfl⟩
  · rw [foldl_combineErrorUnlocked]
    exact ⟨_, _, _, _, [], _, by rw [List.append_nil]; rfl, .inl rfl, .inl rfl⟩
  · exact ⟨_, _, _, _, [], _, by rw [List.append_nil]; rfl, .inl rfl, .inl rfl⟩
  · split
    · exact ⟨_, _, _, _, [], _, by rw [List.append_nil]; rfl, .inl rfl, .inl rfl⟩
    · exact ⟨_, _, _, _, [], _, by rw [List.append_nil]; rfl, .inl rfl, .inl rfl⟩
  · obtain ⟨ops, rfl, -⟩ := removeInFlightOpsAfterFlushing_ok h₁
    exact ⟨_, _, _, _, [], _, by rw [List.append_nil]; rfl, .inl rfl, .inl rfl⟩
  · split
    · exact ⟨_, _, _, _, _, _, rfl, .inr rfl, .inr rfl⟩
    · exact ⟨_, _, _, _, [], _, by rw [List.append_nil]; rfl, .inl rfl, .inr rfl⟩

variable (f)

/-! ### Abort -/

/-- `Abort(status)`: its critical section, then `RunCallback(status)` if `flush_callback_` was
set. -/
def abort (status : Status) (s : Batcher) : Except CheckFailure (Batcher × List Frame) :=
  let s := { s with state := .kAborted }
  (markAllFailed f status
      (s.ops.filter fun op => (s.heap op).state = .kBufferedToTabletServer) s).map
    fun s' => (s', if s'.flushCallback then [.runCallback status] else [])

variable {f}

/-- `Abort` sets `kAborted`, removes from `ops_` exactly the ops in `kBufferedToTabletServer`, and
runs the callback if there is one. -/
theorem abort_ok {st : Status} {s s' : Batcher} {k : List Frame}
    (h : s.abort f st = .ok (s', k)) :
    ∃ ops errors ce he,
      s' = { s with
        state := .kAborted
        ops := ops
        errors := errors
        combinedError := ce
        hadErrors := he } ∧
      (∀ x, ops.count x =
        if (s.heap x).state = .kBufferedToTabletServer then 0 else s.ops.count x) ∧
      k = if s.flushCallback then [.runCallback st] else [] := by
  obtain ⟨hm, rfl⟩ := map_pair_ok.1 h
  obtain ⟨ops, errors, ce, he, rfl, hc⟩ := markAllFailed_ok hm
  refine ⟨ops, errors, ce, he, rfl, fun x => ?_, rfl⟩
  have := hc x
  simp only [count_filter_ite, decide_eq_true_eq] at this
  split_ifs at this ⊢ <;> omega

/-- `Abort` records an error for each op it fails, and only those. -/
theorem abort_errors {st : Status} {s s' : Batcher} {k : List Frame}
    (h : s.abort f st = .ok (s', k)) :
    ∃ l, s'.errors = s.errors ++ l ∧ s'.hadErrors = (s.hadErrors || !l.isEmpty) ∧
      (l = [] → s'.combinedError = s.combinedError) := by
  obtain ⟨hm, rfl⟩ := map_pair_ok.1 h
  obtain ⟨h1, h2, h3⟩ := markAllFailed_errors hm
  have e : ∀ l : List ℕ, (l.map (·, st)).isEmpty = l.isEmpty := fun l => by cases l <;> rfl
  exact ⟨_, h1, by rw [h2, e], fun hl => h3 (List.map_eq_nil_iff.1 hl)⟩

/-! ### Destruction -/

/-- `~Batcher()`: an op left in `ops_` is fatal, and so is a batch neither flushed nor
aborted. -/
def destructor (s : Batcher) : Except CheckFailure Unit :=
  if s.ops ≠ [] then .error .opsNotEmpty
  else if s.state = .kFlushed ∨ s.state = .kAborted then .ok ()
  else .error .destroyBadState

theorem destructor_ok {s : Batcher} :
    s.destructor = .ok () ↔ s.ops = [] ∧ (s.state = .kFlushed ∨ s.state = .kAborted) := by
  unfold destructor; split_ifs <;> simp_all

variable (f)

end Batcher

end ClientBatcher
