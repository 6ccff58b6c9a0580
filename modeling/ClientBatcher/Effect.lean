import ClientBatcher.Step

/-!
# What one action does

An action runs one atomic piece of the batcher's code.  `Effect` has one constructor per way that
piece can go: the checks it passed on the way, the fields it leaves, and the frames its thread
runs next.  `LookupEffect` does the same for the critical section of `TabletLookupFinished`, which
both the answer of a lookup and the rest of `Add` run.

* `act_effect` : every action that succeeds is one of the constructors.  The invariants are
  proved by cases on `Effect`, one named case per constructor, and never unfold `act` or the
  functions of `Ops`.
* `step_ok` : a step is one action on the fields, which takes at most one frame away from the
  threads and adds the frames it goes on with; the pending frames change as a multiset.
* `step_eq`, `step_cases` : which thread ran, and where the frames go.
-/

namespace ClientBatcher

namespace Batcher

variable (f : Flags)

/-- How the critical section of `TabletLookupFinished(op, result)` ends when it runs on `s`: the
fields it leaves and the frames its thread runs next. -/
inductive LookupEffect (op : ℕ) (r : LookupResult) (s : Batcher) : Batcher → List Frame → Prop
  /-- The batch was aborted: the op fails with `Batch aborted`. -/
  | aborted : s.state = .kAborted → op ∈ s.ops →
    LookupEffect op r s (combineErrorUnlocked f op ⟨.kAborted, "Batch aborted"⟩
      { s.recordLookup op r with ops := s.ops.erase op }) []
  /-- The lookup found the tablet `t`: the op is buffered and queued. -/
  | found (t : ℕ) : s.state ≠ .kAborted → r = .ok t → t ≠ 0 →
    (s.heap op).state = .kLookingUpTablet →
    LookupEffect op r s { (s.recordLookup op r).updateOp op
      fun o => { o with state := .kBufferedToTabletServer } with opsQueue := s.opsQueue ++ [op] }
      [.flushBuffersIfReady]
  /-- The lookup failed with `st`: the op fails with it. -/
  | failed (st : Status) : s.state ≠ .kAborted → r = .error st → op ∈ s.ops →
    LookupEffect op r s (combineErrorUnlocked f op st
      { s.recordLookup op r with ops := s.ops.erase op })
      [.checkForFinishedFlush, .flushBuffersIfReady]

/-- **What an action does**, one constructor per path through the code it runs. -/
inductive Effect (s : Batcher) : Action → Batcher → List Frame → Prop
  /-- `Add` of an op whose key `GetPartitionKey` rejects: the batcher is left alone. -/
  | addRejected {yb : YBOperation} {e : Status} : yb.partitionKey = .error e →
    Effect s (.enter (.add yb)) s []
  /-- `Add` up to the end of `AddInFlightOp`: the op is admitted, and its lookup starts. -/
  | add {yb : YBOperation} {key : String} : yb.partitionKey = .ok key →
    s.state = .kGatheringOps → s.nextOpSequenceNumber ∉ s.ops →
    Effect s (.enter (.add yb)) (s.insertOp ⟨setHashCode key yb, key, .kLookingUpTablet, 0, 0⟩)
      [.addTail s.nextOpSequenceNumber]
  /-- `SetTimeout`. -/
  | setTimeout {t : ℤ} : 0 ≤ t → Effect s (.enter (.setTimeout t)) { s with timeout := some t } []
  /-- The critical section of `FlushAsync`. -/
  | flushAsync {now : ℤ} : s.state = .kGatheringOps →
    Effect s (.enter (.flushAsync now))
      { s with
        state := .kFlushing
        flushCallback := true
        deadline := some (s.computeDeadlineUnlocked now) }
      [.checkForFinishedFlush, .flushBuffersIfReady]
  /-- The critical section of `Abort`. -/
  | abort {st : Status} {sd : Batcher} {k : List Frame} : s.abort f st = .ok (sd, k) →
    Effect s (.enter (.abort st)) sd k
  /-- The meta cache answers the lookup of `op`, and `TabletLookupFinished` runs. -/
  | lookupFinished {op : ℕ} {r : LookupResult} {sd : Batcher} {k : List Frame} : op ∈ s.lookups →
    LookupEffect f op r { s with lookups := s.lookups.erase op } sd k →
    Effect s (.enter (.lookupFinished op r)) sd k
  /-- `TransactionReady(OK)`: `FlushBuffersIfReady` runs next. -/
  | transactionReady {st : Status} : 0 < s.waiters → st.ok = true →
    Effect s (.enter (.transactionReady st)) { s with waiters := s.waiters - 1 }
      [.flushBuffersIfReady]
  /-- `TransactionReady` with an error calls `Abort`. -/
  | transactionFailed {st : Status} {sd : Batcher} {k : List Frame} : 0 < s.waiters →
    st.ok = false → { s with waiters := s.waiters - 1 }.abort f st = .ok (sd, k) →
    Effect s (.enter (.transactionReady st)) sd k
  /-- An RPC's response passes `ProcessRpcStatus`'s check. -/
  | rpcFinished {r : ℕ} {rpc : AsyncRpc} {st : Status} {errs : List PerRowError} :
    s.rpcs[r]? = some rpc → rpc.phase = .sent → s.state = .kFlushing →
    Effect s (.enter (.rpcFinished r st errs)) (s.setRpc r (rpc.respond st errs)) []
  /-- `ProcessRpcStatus` records a failed RPC's status against each of its ops. -/
  | rpcFailed {r : ℕ} {rpc : AsyncRpc} : s.rpcs[r]? = some rpc → rpc.phase = .failing →
    Effect s (.enter (.rpcStep r))
      ((rpc.ops.foldl (fun s op => combineErrorUnlocked f op rpc.status s) s).setRpc r
        { rpc with phase := .rowErrors rpc.perRowErrors }) []
  /-- `ProcessWriteResponse` records a per-row error against the op at its index. -/
  | rpcRowError {r : ℕ} {rpc : AsyncRpc} {e : PerRowError} {es : List PerRowError} {y : ℕ} :
    s.rpcs[r]? = some rpc → rpc.phase = .rowErrors (e :: es) → rpc.ops[e.rowIndex]? = some y →
    Effect s (.enter (.rpcStep r))
      ((combineErrorUnlocked f y e.error s).setRpc r { rpc with phase := .rowErrors es }) []
  /-- `ProcessWriteResponse` logs and skips a per-row error whose index is out of range. -/
  | rpcRowErrorSkipped {r : ℕ} {rpc : AsyncRpc} {e : PerRowError} {es : List PerRowError} :
    s.rpcs[r]? = some rpc → rpc.phase = .rowErrors (e :: es) → rpc.ops.length ≤ e.rowIndex →
    Effect s (.enter (.rpcStep r)) (s.setRpc r { rpc with phase := .rowErrors es }) []
  /-- `ProcessWriteResponse` has handled every per-row error. -/
  | rpcRowErrorsDone {r : ℕ} {rpc : AsyncRpc} : s.rpcs[r]? = some rpc →
    rpc.phase = .rowErrors [] →
    Effect s (.enter (.rpcStep r)) (s.setRpc r { rpc with phase := .removing }) []
  /-- The critical section of `RemoveInFlightOpsAfterFlushing`. -/
  | rpcRemoved {r : ℕ} {rpc : AsyncRpc} {s₁ : Batcher} : s.rpcs[r]? = some rpc →
    rpc.phase = .removing → removeInFlightOpsAfterFlushing rpc.ops s = .ok s₁ →
    Effect s (.enter (.rpcStep r)) (s₁.setRpc r { rpc with phase := .notifying }) []
  /-- The unlocked tail of `RemoveInFlightOpsAfterFlushing`: `transaction->Flushed`, if there is
  a transaction; `CheckForFinishedFlush` runs next. -/
  | rpcNotified {r : ℕ} {rpc : AsyncRpc} : s.rpcs[r]? = some rpc → rpc.phase = .notifying →
    Effect s (.enter (.rpcStep r))
      (setRpc { s with trace := s.trace ++
          if s.transaction then [Event.flushed rpc.ops rpc.status] else [] }
        r { rpc with phase := .done }) [.checkForFinishedFlush]
  /-- The rest of `Add` for an op whose tablet the caller resolved: `TabletLookupFinished`. -/
  | addTailFound {op : ℕ} {p : Bool} {sd : Batcher} {k : List Frame} :
    (s.heap op).ybOp.tablet ≠ 0 → LookupEffect f op (.ok (s.heap op).ybOp.tablet) s sd k →
    Effect s (.exec (.addTail op) p) sd k
  /-- The rest of `Add` for an op without a tablet: the meta cache is asked. -/
  | addTailLookup {op : ℕ} {p : Bool} : (s.heap op).ybOp.tablet = 0 →
    Effect s (.exec (.addTail op) p) { s with lookups := s.lookups ++ [op] } []
  /-- `CheckForFinishedFlush` finds the flush not over. -/
  | checkNotFinished {p : Bool} : s.state ≠ .kFlushing ∨ s.ops ≠ [] →
    Effect s (.exec .checkForFinishedFlush p) s []
  /-- `CheckForFinishedFlush` sets `kFlushed`; its unlocked tail runs next. -/
  | checkFinished {p : Bool} : s.state = .kFlushing → s.ops = [] →
    Effect s (.exec .checkForFinishedFlush p) { s with state := .kFlushed } [.flushFinished]
  /-- The unlocked tail of `CheckForFinishedFlush` computes the status and calls `RunCallback`. -/
  | flushFinished {p : Bool} : Effect s (.exec .flushFinished p) s [.runCallback s.flushStatus]
  /-- `RunCallback` reads `flush_callback_`. -/
  | runCallback {st : Status} {p : Bool} :
    Effect s (.exec (.runCallback st) p) s [.runCallbackTail st s.flushCallback]
  /-- The rest of a `RunCallback` that took the callback: it empties `flush_callback_` and runs
  the callback. -/
  | runCallbackTail {st : Status} {p : Bool} :
    Effect s (.exec (.runCallbackTail st true) p)
      { s with flushCallback := false, trace := s.trace ++ [.callback st] } []
  /-- `FlushBuffersIfReady` returns early. -/
  | flushNotReady {p : Bool} : s.state ≠ .kFlushing ∨ s.outstandingLookups ≠ 0 →
    Effect s (.exec .flushBuffersIfReady p) s []
  /-- `transaction->Prepare` returns false: the transaction will call `TransactionReady`. -/
  | prepareDeferred {p : Bool} : s.state = .kFlushing → s.outstandingLookups = 0 →
    s.transaction = true → p = false →
    Effect s (.exec .flushBuffersIfReady p)
      { s with waiters := s.waiters + 1, trace := s.trace ++ [.prepareDeferred s.ops] } []
  /-- `FlushBuffersIfReady` swaps `ops_queue_` out; its `FlushBuffer` calls run next. -/
  | swap {p : Bool} : s.state = .kFlushing → s.outstandingLookups = 0 →
    (s.transaction = true → p = true) →
    Effect s (.exec .flushBuffersIfReady p)
      { s with
        opsQueue := []
        trace := s.trace ++ [.swap (if s.transaction then some s.ops else none) s.opsQueue] }
      ((planFlush f s.heap (s.forceConsistentRead || s.transaction)
        s.allowLocalCallsInCurrThread s.opsQueue).map .flushBuffer)
  /-- `FlushBuffer` creates the RPC of its range. -/
  | flushBuffer {c : FlushBufferCall} {p : Bool} {first : ℕ} {rest : List ℕ} :
    c.ops = first :: rest →
    Effect s (.exec (.flushBuffer c) p)
      { s with
        rpcs := s.rpcs ++ [⟨rpcKindOf (getOpGroup f (s.heap first)), c.tablet,
          c.allowLocalCallsInCurrThread, c.needConsistentRead, c.ops, Status.OK, [], .sent⟩] } []

variable {f}

theorem lookupEffect_of_ok {op : ℕ} {r : LookupResult} {s sd : Batcher} {k : List Frame}
    (h : s.tabletLookupFinished f op r = .ok (sd, k)) : LookupEffect f op r s sd k := by
  rcases tabletLookupFinished_ok h with ⟨ha, hop, rfl, rfl⟩ | ⟨hna, t, rfl, ht, hst, rfl, rfl⟩ |
    ⟨hna, st, rfl, hop, rfl, rfl⟩
  · exact .aborted ha hop
  · exact .found t hna rfl ht hst
  · exact .failed st hna rfl hop

theorem rpcStep_effect {s sd : Batcher} {r : ℕ} {rpc : AsyncRpc} {k : List Frame}
    (hr : s.rpcs[r]? = some rpc) (h : s.rpcStep f r rpc = some (.ok (sd, k))) :
    Effect f s (.enter (.rpcStep r)) sd k := by
  rcases rpcStep_ok h with ⟨hp, rfl, rfl⟩ | ⟨hp, rfl, rfl⟩ | ⟨e, es, hp, rfl, rfl⟩ |
    ⟨hp, rfl, s₁, h₁, rfl⟩ | ⟨hp, rfl, rfl⟩
  · exact .rpcFailed hr hp
  · exact .rpcRowErrorsDone hr hp
  · split
    · exact .rpcRowError hr hp (List.getElem?_eq_getElem ‹_›)
    · exact .rpcRowErrorSkipped hr hp (Nat.le_of_not_lt ‹_›)
  · exact .rpcRemoved hr hp h₁
  · have e : (if s.transaction then { s with trace := s.trace ++ [.flushed rpc.ops rpc.status] }
        else s) = { s with
          trace := s.trace ++ if s.transaction then [.flushed rpc.ops rpc.status] else [] } := by
      split <;> simp
    rw [e]
    exact .rpcNotified hr hp

/-- **What an action is.**  Every action that succeeds is one of the paths of `Effect`. -/
theorem act_effect {s sd : Batcher} {a : Action} {k : List Frame}
    (h : s.act f a = some (.ok (sd, k))) : Effect f s a sd k := by
  cases a with
  | enter l =>
    cases l with
    | add yb =>
      simp only [act, enter, Option.some.injEq] at h
      rcases add_ok h with ⟨e, he, rfl, rfl⟩ | ⟨key, hkey, hst, hn, rfl, rfl⟩
      · exact .addRejected he
      · exact .add hkey hst hn
    | setTimeout t =>
      simp only [act, enter, setTimeout, Option.some.injEq] at h
      split_ifs at h with ht
      · simp [Except.map] at h
      · simp only [Except.map, Except.ok.injEq, Prod.mk.injEq] at h
        obtain ⟨rfl, rfl⟩ := h
        exact .setTimeout (Int.not_lt.1 ht)
    | flushAsync now =>
      simp only [act, enter, Option.some.injEq] at h
      obtain ⟨hs, rfl, rfl⟩ := flushAsync_ok h
      exact .flushAsync hs
    | abort st => exact .abort (by simpa [act, enter] using h)
    | lookupFinished op r =>
      simp only [act, enter] at h
      split_ifs at h with hop
      exact .lookupFinished hop (lookupEffect_of_ok (by simpa using h))
    | transactionReady st =>
      simp only [act, enter] at h
      split_ifs at h with hw hst
      · simp only [Option.some.injEq, Except.ok.injEq, Prod.mk.injEq] at h
        obtain ⟨rfl, rfl⟩ := h
        exact .transactionReady hw hst
      · exact .transactionFailed hw (by simpa using hst) (by simpa using h)
    | rpcFinished r st errs =>
      simp only [act, enter] at h
      split at h
      · rename_i rpc hr
        split_ifs at h with hp
        simp only [Option.some.injEq] at h
        obtain ⟨hx, rfl⟩ := map_pair_ok.1 h
        obtain ⟨hs, rfl⟩ := processRpcStatus_ok.1 hx
        exact .rpcFinished hr hp hs
      · cases h
    | rpcStep r =>
      simp only [act, enter] at h
      split at h
      · exact rpcStep_effect ‹_› h
      · cases h
    | run i p => simp [act, enter] at h
  | exec fr p =>
    simp only [act, exec, Option.some.injEq] at h
    cases fr with
    | addTail op =>
      rcases addTail_ok h with ⟨ht, h'⟩ | ⟨ht, rfl, rfl⟩
      · exact .addTailFound ht (lookupEffect_of_ok h')
      · exact .addTailLookup ht
    | checkForFinishedFlush =>
      rcases checkForFinishedFlush_cases (Except.ok.inj h) with ⟨hc, rfl, rfl⟩ |
        ⟨hs, ho, rfl, rfl⟩
      · exact .checkNotFinished hc
      · exact .checkFinished hs ho
    | flushFinished =>
      obtain ⟨rfl, rfl⟩ := Prod.mk.inj (Except.ok.inj h)
      exact .flushFinished
    | runCallback st =>
      obtain ⟨rfl, rfl⟩ := Prod.mk.inj (Except.ok.inj h)
      exact .runCallback
    | runCallbackTail st taken =>
      obtain ⟨hx, rfl⟩ := map_pair_ok.1 h
      obtain ⟨rfl, rfl⟩ := runCallbackTail_ok.1 hx
      exact .runCallbackTail
    | flushBuffersIfReady =>
      rcases flushBuffersIfReady_cases (Except.ok.inj h) with ⟨hc, rfl, rfl⟩ |
        ⟨hs, hl, ht, hp, rfl, rfl⟩ | ⟨hs, hl, ht, rfl, rfl⟩
      · exact .flushNotReady hc
      · exact .prepareDeferred hs hl ht hp
      · exact .swap hs hl ht
    | flushBuffer c =>
      obtain ⟨hx, rfl⟩ := map_pair_ok.1 h
      obtain ⟨first, rest, hc, rfl⟩ := flushBuffer_ok.1 hx
      exact .flushBuffer hc

theorem exec_effect {s sd : Batcher} {fr : Frame} {p : Bool} {k : List Frame}
    (h : s.exec f p fr = .ok (sd, k)) : Effect f s (.exec fr p) sd k :=
  act_effect (by simp [act, h])

theorem enter_effect {s sd : Batcher} {l : Label} {k : List Frame}
    (h : s.enter f l = some (.ok (sd, k))) : Effect f s (.enter l) sd k :=
  act_effect (by simpa [act] using h)

/-! ### Steps -/

/-- **How a step runs.**  A thread runs its first frame; or a call enters the batcher and leaves
its frames as a new thread. -/
theorem step_eq {s s' : Batcher} {l : Label} (h : s.step f l = some (.ok s')) :
    (∃ i p fr rest others sd k, l = .run i p ∧ pick s.threads i = some (fr :: rest, others) ∧
      s.exec f p fr = .ok (sd, k) ∧ s' = { sd with threads := resume others (k ++ rest) }) ∨
    (∃ sd k, (∀ i p, l ≠ .run i p) ∧ s.enter f l = some (.ok (sd, k)) ∧
      s' = { sd with threads := resume s.threads k }) := by
  by_cases hl : ∃ i p, l = .run i p
  · obtain ⟨i, p, rfl⟩ := hl
    simp only [step] at h
    split at h
    · rename_i fr rest others hpick
      cases hx : s.exec f p fr with
      | error e => simp [hx, Except.map] at h
      | ok q =>
        simp only [hx, Except.map, Option.some.injEq, Except.ok.injEq] at h
        exact .inl ⟨i, p, fr, rest, others, q.1, q.2, rfl, hpick, hx, h.symm⟩
    · simp at h
  · have hstep : s.step f l =
        (s.enter f l).map (·.map fun p => { p.1 with threads := resume s.threads p.2 }) := by
      cases l <;> simp_all [step]
    rw [hstep, Option.map_eq_some'] at h
    obtain ⟨x, hx, hmap⟩ := h
    cases x with
    | error e => cases hmap
    | ok q =>
      cases hmap
      exact .inr ⟨q.1, q.2, fun i p he => hl ⟨i, p, he⟩, hx, rfl⟩

/-- **What a step is.**  A step runs one action on the fields; the action takes its frames away
from the threads and adds the frames it goes on with. -/
theorem step_ok {s s' : Batcher} {l : Label} (h : s.step f l = some (.ok s')) :
    ∃ a sd k R, Effect f s a sd k ∧ s' = { sd with threads := s'.threads } ∧
      s.frames.Perm (a.consumes ++ R) ∧ s'.frames.Perm (k ++ R) ∧ a.aborts = l.aborts := by
  rcases step_eq h with ⟨i, p, fr, rest, others, sd, k, rfl, hpick, hx, rfl⟩ |
    ⟨sd, k, -, hx, rfl⟩
  · refine ⟨.exec fr p, sd, k, rest ++ others.flatten, exec_effect hx, rfl, ?_, ?_, rfl⟩
    · simpa [frames] using (pick_perm hpick).flatten
    · exact List.perm_iff_count.2 fun x => by simp [frames]; omega
  · exact ⟨.enter l, sd, k, s.frames, enter_effect hx, rfl,
      by simp [Action.consumes], by simpa [frames] using List.perm_append_comm, rfl⟩

/-- **What a step does to the threads.**  A call entering the batcher leaves its frames as a new
thread; a thread that runs a frame goes on with the frames the frame starts and its other
frames, behind the other threads. -/
theorem step_cases {s s' : Batcher} {l : Label} (h : s.step f l = some (.ok s')) :
    ∃ a sd k, Effect f s a sd k ∧
      ((∃ l', a = .enter l' ∧ s' = { sd with threads := resume s.threads k }) ∨
       (∃ fr p A B rest, a = .exec fr p ∧ s.threads = A ++ (fr :: rest) :: B ∧
          s' = { sd with threads := resume (A ++ B) (k ++ rest) })) := by
  rcases step_eq h with ⟨i, p, fr, rest, others, sd, k, rfl, hpick, hx, rfl⟩ |
    ⟨sd, k, -, hx, rfl⟩
  · obtain ⟨A, B, hth, rfl⟩ := pick_eq hpick
    exact ⟨.exec fr p, sd, k, exec_effect hx,
      .inr ⟨fr, p, A, B, rest, rfl, hth, rfl⟩⟩
  · exact ⟨.enter l, sd, k, enter_effect hx, .inl ⟨l, rfl, rfl⟩⟩

end Batcher

end ClientBatcher
