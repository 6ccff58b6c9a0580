import ClientBatcher.Scan
import ClientBatcher.Transaction

/-!
# The RPCs of a batch

`FlushBuffer` turns one call of `FlushBuffersIfReady` into an RPC with the call's tablet, range
and flags.  Only the swap that takes a non-empty `ops_queue_` makes calls, and before it the batch
has none; the calls are then made one after the other, and an RPC's completion changes its
status and phase but never its range or flags.  So in every state of a run the calls of the
batch, made or still to make, are the plan of that one swap, and what the plan promised for its
calls holds of the RPCs the batch sends.

* `flushCalls` : the `FlushBuffer` calls of a batch, made (read back from the RPCs they created,
  in order) or still to make.
* `step_flushCalls` : a step keeps the calls and the records of their ops, or is the swap, which
  makes the calls of its plan in a batch that had none.
* `CallsInv` : every call has a non-empty range within the cap on sidecars, and the calls carry
  the flags of one plan of the batch.
* `rpc_sidecar_cap` : in every run every RPC has a non-empty range with at most
  `kMaxSidecarSlices` ops that return a sidecar.
* `rpc_batch_flags` : in every run the calls of a batch agree on `need_consistent_read`, and only
  the last may run in the current thread.
-/

namespace ClientBatcher

/-- The `FlushBuffer` call that created an RPC: its tablet, range and flags. -/
def AsyncRpc.call (rpc : AsyncRpc) : FlushBufferCall :=
  ⟨rpc.tablet, rpc.ops, rpc.allowLocalCallsInCurrThread, rpc.needConsistentRead⟩

/-- The `FlushBuffer` call a frame still has to make. -/
def Frame.calls : Frame → List FlushBufferCall
  | .flushBuffer c => [c]
  | _ => []

namespace Batcher

variable {f : Flags} {s sd : Batcher} {k : List Frame}

/-- The `FlushBuffer` calls the frames `fr` hold, in order. -/
def callsOf (fr : List Frame) : List FlushBufferCall := fr.flatMap Frame.calls

/-- The `FlushBuffer` calls of the batch: those made, as the RPCs they created, then those still
to make. -/
def flushCalls (s : Batcher) : List FlushBufferCall :=
  s.rpcs.map AsyncRpc.call ++ callsOf s.frames

@[simp] theorem callsOf_nil : callsOf [] = [] := rfl

@[simp] theorem callsOf_cons (fr : Frame) (t : List Frame) :
    callsOf (fr :: t) = fr.calls ++ callsOf t := rfl

@[simp] theorem callsOf_append (t t' : List Frame) :
    callsOf (t ++ t') = callsOf t ++ callsOf t' := by
  simp [callsOf]

theorem callsOf_map_flushBuffer (cs : List FlushBufferCall) :
    callsOf (cs.map Frame.flushBuffer) = cs := by
  induction cs <;> simp [Frame.calls, *]

theorem callsOf_eq_nil {fr : List Frame} (h : ∀ x ∈ fr, x.isFlushBuffer = false) :
    callsOf fr = [] :=
  List.flatMap_eq_nil_iff.2 fun x hx => by
    cases x with
    | flushBuffer => cases h _ hx
    | _ => rfl

/-- The ops a thread still has to hand out are the ranges of its calls. -/
theorem localOf_eq_flatMap_callsOf (fr : List Frame) :
    localOf fr = (callsOf fr).flatMap (·.ops) := by
  induction fr with
  | nil => rfl
  | cons x fr ih => cases x <;> simp [Frame.calls, ih]

/-- Frames whose calls have non-empty ranges hold a call iff they hold an op to hand out. -/
theorem callsOf_eq_nil_iff {fr : List Frame} (hne : ∀ c ∈ callsOf fr, c.ops ≠ []) :
    callsOf fr = [] ↔ localOf fr = [] := by
  rw [localOf_eq_flatMap_callsOf, List.flatMap_eq_nil_iff]
  exact ⟨fun h => by simp [h], fun h => List.eq_nil_iff_forall_not_mem.2 fun c hc =>
    hne c hc (h c hc)⟩

theorem handedOut_eq_flatMap_flushCalls (s : Batcher) :
    s.handedOut = s.flushCalls.flatMap (·.ops) := by
  simp [handedOut, flushCalls, dispatched, localOf_eq_flatMap_callsOf, List.flatMap_map,
    AsyncRpc.call, Function.comp_def]

theorem mem_handedOut_of_mem_flushCalls {c : FlushBufferCall} (hc : c ∈ s.flushCalls) {x : ℕ}
    (hx : x ∈ c.ops) : x ∈ s.handedOut :=
  (handedOut_eq_flatMap_flushCalls s).symm ▸ List.mem_flatMap.2 ⟨c, hc, hx⟩

/-- While at most one thread holds calls, each with a range, where the running thread's frames
go does not change the order of the calls. -/
theorem callsOf_exec {A B : List (List Frame)} {fr : Frame} {rest k : List Frame}
    (hb : busy (A ++ (fr :: rest) :: B) ≤ 1)
    (hne : ∀ c ∈ callsOf (A ++ (fr :: rest) :: B).flatten, c.ops ≠ []) (hk : callsOf k = []) :
    fr.calls ++ callsOf (resume (A ++ B) (k ++ rest)).flatten =
      callsOf (A ++ (fr :: rest) :: B).flatten := by
  have hsub : ∀ t, (∀ c ∈ callsOf t, c ∈ callsOf (A ++ (fr :: rest) :: B).flatten) →
      (callsOf t = [] ↔ localOf t = []) := fun t ht =>
    callsOf_eq_nil_iff fun c hc => hne c (ht c hc)
  have hloc : fr.calls ++ callsOf rest = [] ↔ localOf (fr :: rest) = [] :=
    hsub (fr :: rest) fun c hc => by
      rw [callsOf_cons, List.mem_append] at hc
      rcases hc with hc | hc <;> simp [hc]
  simp only [flatten_resume, List.flatten_append, List.flatten_cons, callsOf_append, callsOf_cons,
    hk, List.nil_append, List.append_assoc]
  by_cases ht : fr.calls ++ callsOf rest = []
  · obtain ⟨h1, h2⟩ := List.append_eq_nil.1 ht
    simp only [h1, h2, List.nil_append, List.append_nil]
  · have hloc : localOf (fr :: rest) ≠ [] := mt hloc.2 ht
    have hAB : busy A = 0 ∧ busy B = 0 := by
      rw [busy_append, busy_cons, if_neg hloc] at hb
      omega
    rw [(hsub A.flatten fun c hc => by simp [hc]).2 (busy_eq_zero.1 hAB.1),
      (hsub B.flatten fun c hc => by simp [hc]).2 (busy_eq_zero.1 hAB.2)]
    simp

theorem map_set_of_eq {α β : Type} {l : List α} {r : ℕ} {a b : α} (hb : l[r]? = some b)
    (g : α → β) (hg : g a = g b) : (l.set r a).map g = l.map g := by
  obtain ⟨hr, rfl⟩ := List.getElem?_eq_some_iff.1 hb
  refine List.ext_getElem (by simp) fun j _ _ => ?_
  simp only [List.getElem_map, List.getElem_set]
  split <;> simp_all

/-! ### What an action does to the calls -/

/-- No action changes `force_consistent_read_` or `allow_local_calls_in_curr_thread_`. -/
theorem Effect.flags {a : Action} (h : Effect f s a sd k) :
    sd.forceConsistentRead = s.forceConsistentRead ∧
      sd.allowLocalCallsInCurrThread = s.allowLocalCallsInCurrThread := by
  cases h
  case abort ha | transactionFailed ha =>
    obtain ⟨ops, errors, ce, he, rfl, -⟩ := abort_ok ha; exact ⟨rfl, rfl⟩
  case lookupFinished hl | addTailFound hl => cases hl <;> exact ⟨rfl, rfl⟩
  case rpcFailed => simp [foldl_combineErrorUnlocked]
  case rpcRemoved hrm =>
    obtain ⟨ops, rfl, -⟩ := removeInFlightOpsAfterFlushing_ok hrm; exact ⟨rfl, rfl⟩
  all_goals exact ⟨rfl, rfl⟩

/-- **What an action does to the calls.**  Either it makes no call, and the call it runs, if
any, becomes a new RPC at the end with the call's tablet, range and flags; or it is the swap,
which leaves the RPCs and the heap alone and makes the calls of its plan. -/
theorem Effect.calls {a : Action} (h : Effect f s a sd k) :
    (callsOf k = [] ∧
      sd.rpcs.map AsyncRpc.call = s.rpcs.map AsyncRpc.call ++ callsOf a.consumes) ∨
    (∃ p, a = .exec .flushBuffersIfReady p ∧ sd.rpcs = s.rpcs ∧ sd.heap = s.heap ∧
      callsOf k = planFlush f s.heap (s.forceConsistentRead || s.transaction)
        s.allowLocalCallsInCurrThread s.opsQueue) := by
  have quiet : sd.rpcs.map AsyncRpc.call = s.rpcs.map AsyncRpc.call → callsOf k = [] →
      callsOf a.consumes = [] → callsOf k = [] ∧
        sd.rpcs.map AsyncRpc.call = s.rpcs.map AsyncRpc.call ++ callsOf a.consumes :=
    fun hr hk hc => ⟨hk, by rw [hr, hc, List.append_nil]⟩
  cases h
  case swap => exact .inr ⟨_, rfl, rfl, rfl, callsOf_map_flushBuffer _⟩
  case flushBuffer => exact .inl ⟨rfl, by simp [AsyncRpc.call, Action.consumes, Frame.calls]⟩
  case abort ha | transactionFailed ha =>
    obtain ⟨ops, errors, ce, he, rfl, -, rfl⟩ := abort_ok ha
    exact .inl (quiet rfl (by split <;> rfl) rfl)
  case lookupFinished hl | addTailFound hl => cases hl <;> exact .inl (quiet rfl rfl rfl)
  case rpcFinished hr _ _ | rpcRowError hr _ _ | rpcRowErrorSkipped hr _ _ |
      rpcRowErrorsDone hr _ | rpcNotified hr _ =>
    exact .inl (quiet (map_set_of_eq hr _ rfl) rfl rfl)
  case rpcFailed hr _ =>
    rw [foldl_combineErrorUnlocked] at quiet ⊢
    exact .inl (quiet (map_set_of_eq hr _ rfl) rfl rfl)
  case rpcRemoved hr _ hrm =>
    obtain ⟨ops, rfl, -⟩ := removeInFlightOpsAfterFlushing_ok hrm
    exact .inl (quiet (map_set_of_eq hr _ rfl) rfl rfl)
  all_goals exact .inl (quiet rfl rfl rfl)

/-! ### What a step does to the calls -/

/-- **What a step does to the calls of the batch.**  It keeps the flags of the batch; and it
keeps the calls and the records of their ops, or it is the swap that takes a non-empty queue,
which, in a batch with no call yet, makes the calls of its plan. -/
theorem step_flushCalls {s s' : Batcher} {l : Label} (hc : s.Census) (hw : s.SwapInv)
    (ho : s.OrderInv f) (hne : ∀ c ∈ s.flushCalls, c.ops ≠ []) (hs : s.step f l = some (.ok s')) :
    s'.forceConsistentRead = s.forceConsistentRead ∧ s'.transaction = s.transaction ∧
    s'.allowLocalCallsInCurrThread = s.allowLocalCallsInCurrThread ∧
    ((s'.flushCalls = s.flushCalls ∧ ∀ x ∈ s.handedOut, s'.heap x = s.heap x) ∨
      (s.flushCalls = [] ∧ s'.heap = s.heap ∧ s'.flushCalls = planFlush f s.heap
        (s.forceConsistentRead || s.transaction) s.allowLocalCallsInCurrThread s.opsQueue)) := by
  obtain ⟨a, sd, k, ha, hth⟩ := step_cases hs
  obtain ⟨hforce, hallow⟩ := ha.flags
  have htx := ha.transaction
  rcases hth with ⟨l', rfl, rfl⟩ | ⟨fr, p, A, B, rest, rfl, hts, rfl⟩
  · refine ⟨hforce, htx, hallow, .inl ⟨?_, fun x => ha.heap_handed hc (by
      simp [Action.consumes])⟩⟩
    rcases ha.calls with ⟨hk, hr⟩ | ⟨p, hp, -⟩
    · simp [flushCalls, frames, hk, hr, Action.consumes]
    · cases hp
  · refine ⟨hforce, htx, hallow, ?_⟩
    have hfr : fr ∈ s.frames := by simp [frames, hts]
    have hheap := fun x => ha.heap_handed (x := x) hc (by simpa [Action.consumes] using hfr)
    have same : callsOf k = [] →
        sd.rpcs.map AsyncRpc.call = s.rpcs.map AsyncRpc.call ++ fr.calls →
        { sd with threads := resume (A ++ B) (k ++ rest) }.flushCalls = s.flushCalls :=
      fun hk hr => by
        have hne' : ∀ c ∈ callsOf (A ++ (fr :: rest) :: B).flatten, c.ops ≠ [] := fun c hc =>
          hne c (List.mem_append_right _ (by rwa [frames, hts]))
        simp only [flushCalls, frames, hts, hr, List.append_assoc]
        exact congrArg (s.rpcs.map AsyncRpc.call ++ ·) (callsOf_exec (hts ▸ ho.one_local) hne' hk)
    rcases ha.calls with ⟨hk, hr⟩ | ⟨p, hp, hr, hh, hk⟩
    · exact .inl ⟨same hk (by simpa [Action.consumes] using hr), hheap⟩
    · obtain ⟨rfl, -⟩ := Action.exec.inj hp
      by_cases hq : s.opsQueue = []
      · exact .inl ⟨same (by rw [hk, hq]; rfl) (by simp [hr, Frame.calls]), hheap⟩
      · have hns : ¬s.Swapped := fun hsw => hq (hw.after_swap hsw).1
        obtain ⟨hr0, hfb⟩ := hw.before_swap hns
        have hnil := callsOf_eq_nil hfb
        refine .inr ⟨by simp [flushCalls, hr0, hnil], hh, ?_⟩
        simp only [frames, hts, List.flatten_append, List.flatten_cons, callsOf_append,
          callsOf_cons, Frame.calls, List.nil_append, List.append_eq_nil] at hnil
        simp [flushCalls, frames, hr, hr0, hk, hnil.1, hnil.2.1, hnil.2.2]

/-! ### The invariant -/

/-- The invariant of the calls of a batch: each has a non-empty range within the cap on
sidecars, and they carry the flags of one plan of the batch. -/
structure CallsInv (f : Flags) (s : Batcher) : Prop where
  bounded : ∀ c ∈ s.flushCalls, c.ops ≠ [] ∧ sidecars s.heap c.ops ≤ f.maxSidecarSlices
  need : ∀ c ∈ s.flushCalls, c.needConsistentRead =
    (s.forceConsistentRead || s.transaction || decide (2 ≤ s.flushCalls.length))
  allow_init : ∀ c ∈ s.flushCalls.dropLast, c.allowLocalCallsInCurrThread = false
  allow_last : ∀ c ∈ s.flushCalls.getLast?,
    c.allowLocalCallsInCurrThread = s.allowLocalCallsInCurrThread

/-- Every step keeps the invariant. -/
theorem CallsInv.step {s s' : Batcher} {l : Label} (hpos : 0 < f.maxSidecarSlices)
    (hc : s.Census) (hw : s.SwapInv) (ho : s.OrderInv f) (h : s.CallsInv f)
    (hs : s.step f l = some (.ok s')) : s'.CallsInv f := by
  obtain ⟨hforce, htx, hallow, ⟨hcalls, hheap⟩ | ⟨-, hh, hcalls⟩⟩ :=
    step_flushCalls hc hw ho (fun c hc => (h.bounded c hc).1) hs
  · refine ⟨fun c hc' => ?_, ?_, ?_, ?_⟩
    · rw [hcalls] at hc'
      refine ⟨(h.bounded c hc').1, le_of_eq_of_le ?_ (h.bounded c hc').2⟩
      exact List.countP_congr fun x hx => by
        rw [hheap x (mem_handedOut_of_mem_flushCalls hc' hx)]
    · rw [hcalls, hforce, htx]; exact h.need
    · rw [hcalls]; exact h.allow_init
    · rw [hcalls, hallow]; exact h.allow_last
  · refine ⟨?_, ?_, ?_, ?_⟩
    · rw [hcalls, hh]; exact planFlush_bounded hpos
    · rw [hcalls, hforce, htx]; exact planFlush_needConsistentRead hpos _ _ _
    · rw [hcalls]; exact (planFlush_allowLocal _ _ _).1
    · rw [hcalls, hallow]; exact (planFlush_allowLocal _ _ _).2

theorem callsInv_init (transaction forceConsistentRead allowLocalCallsInCurrThread : Bool) :
    (Batcher.init transaction forceConsistentRead allowLocalCallsInCurrThread).CallsInv f := by
  refine ⟨?_, ?_, ?_, ?_⟩ <;> simp [flushCalls, init, frames]

theorem callsInv_reachable {allowed : Batcher → Label → Prop} (hpos : 0 < f.maxSidecarSlices)
    (h : Reachable f allowed s) : s.CallsInv f :=
  h.invariant callsInv_init fun hr hs _ hstep =>
    hs.step hpos (census_reachable hr) (swapInv_reachable hr) (orderInv_reachable hr) hstep

/-! ### The RPCs of every run -/

/-- **Every RPC within the transport's limit.**  With `kMaxSidecarSlices ≥ 1`, in every run,
whatever the order of the steps: every RPC that `FlushBuffer` created carries a non-empty range
of ops, at most `kMaxSidecarSlices` of which return a sidecar. -/
theorem rpc_sidecar_cap {allowed : Batcher → Label → Prop} (hpos : 0 < f.maxSidecarSlices)
    (h : Reachable f allowed s) :
    ∀ rpc ∈ s.rpcs, rpc.ops ≠ [] ∧ sidecars s.heap rpc.ops ≤ f.maxSidecarSlices := fun rpc hr =>
  (callsInv_reachable hpos h).bounded rpc.call (List.mem_append_left _ (List.mem_map_of_mem _ hr))

/-- Two writes to one tablet that both return a sidecar, with a cap of one: two RPCs. -/
theorem rpc_sidecar_cap_two_sidecar_writes :
    ∃ s : Batcher, 0 < (⟨false, false, 1⟩ : Flags).maxSidecarSlices ∧
      Reachable ⟨false, false, 1⟩ anyStep s ∧ s.rpcs.length = 2 ∧
      ∀ rpc ∈ s.rpcs, rpc.ops ≠ [] ∧
        sidecars s.heap rpc.ops ≤ (⟨false, false, 1⟩ : Flags).maxSidecarSlices := by
  have hrun : (Batcher.init false false false).run ⟨false, false, 1⟩
      [.add ⟨.qlWrite, false, .strong, true, 1, .ok "k", false, none⟩,
        .add ⟨.qlWrite, false, .strong, true, 1, .ok "k", false, none⟩, .run 0 false,
        .run 0 false, .flushAsync 0, .run 0 false, .run 0 false, .run 0 false, .run 0 false,
        .run 1 false] = some (.ok _) := rfl
  have hr := Reachable.run (.init false false false) (fun _ _ _ => trivial) hrun
  exact ⟨_, by decide, hr, rfl, rpc_sidecar_cap (by decide) hr⟩

/-- **The flags of a batch's RPCs.**  With `kMaxSidecarSlices ≥ 1`, in every run: the
`FlushBuffer` calls of the batch, those made (as the RPCs they created, in order) and those
still to make, all need a consistent read iff the batch forces consistent reads, has a
transaction, or makes two calls or more; and all but the last run off the current thread, the
last with `allow_local_calls_in_curr_thread_`. -/
theorem rpc_batch_flags {allowed : Batcher → Label → Prop} (hpos : 0 < f.maxSidecarSlices)
    (h : Reachable f allowed s) :
    (∀ c ∈ s.flushCalls, c.needConsistentRead =
      (s.forceConsistentRead || s.transaction || decide (2 ≤ s.flushCalls.length))) ∧
    (∀ c ∈ s.flushCalls.dropLast, c.allowLocalCallsInCurrThread = false) ∧
    ∀ c ∈ s.flushCalls.getLast?, c.allowLocalCallsInCurrThread = s.allowLocalCallsInCurrThread :=
  have hi := callsInv_reachable hpos h
  ⟨hi.need, hi.allow_init, hi.allow_last⟩

/-- The same run half-way: one RPC made, one call still to make, both needing a consistent
read. -/
theorem rpc_batch_flags_half_sent :
    ∃ s : Batcher, 0 < (⟨false, false, 1⟩ : Flags).maxSidecarSlices ∧
      Reachable ⟨false, false, 1⟩ anyStep s ∧ s.rpcs.length = 1 ∧ s.flushCalls.length = 2 ∧
      (∀ c ∈ s.flushCalls, c.needConsistentRead =
        (s.forceConsistentRead || s.transaction || decide (2 ≤ s.flushCalls.length))) ∧
      (∀ c ∈ s.flushCalls.dropLast, c.allowLocalCallsInCurrThread = false) ∧
      ∀ c ∈ s.flushCalls.getLast?,
        c.allowLocalCallsInCurrThread = s.allowLocalCallsInCurrThread := by
  have hrun : (Batcher.init false false false).run ⟨false, false, 1⟩
      [.add ⟨.qlWrite, false, .strong, true, 1, .ok "k", false, none⟩,
        .add ⟨.qlWrite, false, .strong, true, 1, .ok "k", false, none⟩, .run 0 false,
        .run 0 false, .flushAsync 0, .run 0 false, .run 0 false, .run 0 false,
        .run 0 false] = some (.ok _) := rfl
  have hr := Reachable.run (.init false false false) (fun _ _ _ => trivial) hrun
  exact ⟨_, by decide, hr, rfl, rfl, rpc_batch_flags (by decide) hr⟩

end Batcher

end ClientBatcher
