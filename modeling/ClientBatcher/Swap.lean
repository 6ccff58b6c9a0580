import ClientBatcher.Census

/-!
# One swap of `ops_queue_`

`FlushBuffersIfReady` takes the ops out of `ops_queue_` under the lock (its *swap*) only while
the batch is flushing and no lookup is outstanding.  From then on no op can be added and no
lookup can finish, so `ops_queue_` stays empty, and every later swap takes nothing.

`SwapInvOf` is the invariant, for the batcher's fields and the frames of its threads:

* a flushing batch has a deadline;
* after the first swap, `ops_queue_` is empty, no lookup is pending, the batch is no longer
  gathering and it has a deadline;
* before it, no `FlushBuffer` call is pending and no RPC exists;
* at most one swap takes a non-empty list, and that list holds every op whose lookup succeeded;
* before the first swap, and until `Abort`, every op whose lookup succeeded is queued.

`flush_single_pass` : in every run, `FlushBuffer` is called only with a deadline set and no
lookup pending, at most one swap takes ops, and it takes every op whose lookup succeeded.
-/

namespace ClientBatcher

/-- The ops a swap took out of `ops_queue_`. -/
def Event.taken : Event → List ℕ
  | .swap _ taken => taken
  | _ => []

/-- A swap, or the answer of a lookup: the events the swap invariant reads. -/
def Event.isSwapOrLookup : Event → Bool
  | .swap _ _ | .lookupFinished _ _ => true
  | _ => false

/-- A `FlushBuffer` call. -/
def Frame.isFlushBuffer : Frame → Bool
  | .flushBuffer _ => true
  | _ => false

namespace Batcher

/-- `FlushBuffersIfReady` has swapped `ops_queue_` out at least once. -/
def Swapped (s : Batcher) : Prop := ∃ p taken, Event.swap p taken ∈ s.trace

/-- The invariant of every run, for the batcher's fields `s` and the frames `fr` of its
threads. -/
structure SwapInvOf (s : Batcher) (fr : List Frame) : Prop where
  flushing_deadline : s.state = .kFlushing → s.deadline.isSome
  after_swap : s.Swapped →
    s.opsQueue = [] ∧ s.pendingOf fr = [] ∧ s.state ≠ .kGatheringOps ∧ s.deadline.isSome
  before_swap : ¬s.Swapped → s.rpcs = [] ∧ ∀ fr' ∈ fr, fr'.isFlushBuffer = false
  single : (s.trace.filter fun e => !e.taken.isEmpty).length ≤ 1
  complete : ∀ p taken, Event.swap p taken ∈ s.trace → taken ≠ [] →
    ∀ op t, Event.lookupFinished op (.ok t) ∈ s.trace → op ∈ taken
  queued : ¬s.Swapped → s.state ≠ .kAborted →
    ∀ op t, Event.lookupFinished op (.ok t) ∈ s.trace → op ∈ s.opsQueue

/-- The invariant of every run. -/
def SwapInv (s : Batcher) : Prop := s.SwapInvOf s.frames

variable {f : Flags} {s sd : Batcher} {fr fr' c k R : List Frame}

/-! ### The trace -/

theorem swapped_append {evs : List Event} (hevs : ∀ e ∈ evs, e.isSwapOrLookup = false) :
    (∃ p taken, Event.swap p taken ∈ s.trace ++ evs) ↔ s.Swapped := by
  refine ⟨fun ⟨p, t, h⟩ => ?_, fun ⟨p, t, h⟩ => ⟨p, t, List.mem_append_left _ h⟩⟩
  rcases List.mem_append.1 h with h | h
  · exact ⟨p, t, h⟩
  · simpa [Event.isSwapOrLookup] using hevs _ h

theorem mem_lookup_append {evs : List Event} (hevs : ∀ e ∈ evs, e.isSwapOrLookup = false)
    {op : ℕ} {r : LookupResult} :
    Event.lookupFinished op r ∈ s.trace ++ evs ↔ Event.lookupFinished op r ∈ s.trace := by
  refine ⟨fun h => ?_, List.mem_append_left _⟩
  rcases List.mem_append.1 h with h | h
  · exact h
  · simpa [Event.isSwapOrLookup] using hevs _ h

theorem filter_taken_append {evs : List Event} (hevs : ∀ e ∈ evs, e.isSwapOrLookup = false) :
    ((s.trace ++ evs).filter fun e => !e.taken.isEmpty) =
      s.trace.filter fun e => !e.taken.isEmpty := by
  have h0 : evs.filter (fun e => !e.taken.isEmpty) = [] := List.filter_eq_nil_iff.2 fun e he => by
    cases e with
    | swap => cases hevs _ he
    | _ => simp [Event.taken]
  rw [List.filter_append, h0, List.append_nil]

theorem swapped_of_mem {p : Option (List ℕ)} {taken : List ℕ}
    (h : Event.swap p taken ∈ s.trace) : s.Swapped := ⟨p, taken, h⟩

theorem filter_taken_eq_nil (hns : ¬s.Swapped) :
    (s.trace.filter fun e => !e.taken.isEmpty) = [] :=
  List.filter_eq_nil_iff.2 fun e he => by
    cases e with
    | swap p t => exact fun _ => hns (swapped_of_mem he)
    | _ => simp [Event.taken]

/-- No swap has happened while a lookup is pending. -/
theorem SwapInvOf.not_swapped (h : s.SwapInvOf fr) (hp : s.pendingOf fr ≠ []) : ¬s.Swapped :=
  fun hs => hp (h.after_swap hs).2.1

theorem SwapInvOf.perm (h : s.SwapInvOf fr) (hp : fr.Perm fr') : s.SwapInvOf fr' where
  flushing_deadline := h.flushing_deadline
  after_swap hs := by
    obtain ⟨h1, h2, h3⟩ := h.after_swap hs
    refine ⟨h1, ?_, h3⟩
    rw [← List.length_eq_zero] at h2 ⊢
    simpa [pendingOf, (hp.flatMap_right Frame.lookupOps).length_eq] using h2
  before_swap hs := ⟨(h.before_swap hs).1, fun x hx => (h.before_swap hs).2 x (hp.mem_iff.2 hx)⟩
  single := h.single
  complete := h.complete
  queued := h.queued

/-- Before the first swap the invariant says only that a flushing batch has a deadline, that no
`FlushBuffer` call exists, and that every op whose lookup succeeded is queued until `Abort`. -/
theorem SwapInvOf.of_not_swapped (hns : ¬s.Swapped)
    (hfd : s.state = .kFlushing → s.deadline.isSome)
    (hb : s.rpcs = [] ∧ ∀ fr' ∈ fr, fr'.isFlushBuffer = false)
    (hq : s.state ≠ .kAborted → ∀ op t, Event.lookupFinished op (.ok t) ∈ s.trace →
      op ∈ s.opsQueue) : s.SwapInvOf fr where
  flushing_deadline := hfd
  after_swap hs := absurd hs hns
  before_swap _ := hb
  single := by rw [filter_taken_eq_nil hns]; exact Nat.zero_le _
  complete p t hpt := absurd (swapped_of_mem hpt) hns
  queued _ := hq

/-! ### The actions -/

/-- An action that records neither a swap nor a lookup, moves no queued or pending op, creates no
RPC and no `FlushBuffer` call, and moves `state_` forward keeps the invariant. -/
theorem SwapInvOf.quiet (h : s.SwapInvOf (c ++ R)) (hc : c.flatMap Frame.lookupOps = [])
    (hk : k.flatMap Frame.lookupOps = [] ∧ ∀ fr ∈ k, fr.isFlushBuffer = false)
    (htr : ∃ evs, sd.trace = s.trace ++ evs ∧ ∀ e ∈ evs, e.isSwapOrLookup = false)
    (hq : sd.opsQueue = s.opsQueue) (hl : sd.lookups = s.lookups)
    (hr : s.rpcs = [] → sd.rpcs = []) (hd : sd.deadline = s.deadline)
    (hs : sd.state = s.state ∨ (s.state = .kFlushing ∧ sd.state = .kFlushed) ∨
      sd.state = .kAborted) :
    sd.SwapInvOf (k ++ R) := by
  obtain ⟨evs, htr, hevs⟩ := htr
  have hsw : sd.Swapped ↔ s.Swapped := by rw [Swapped, htr]; exact swapped_append hevs
  have hp : sd.pendingOf (k ++ R) = s.pendingOf (c ++ R) := by simp [pendingOf, hk.1, hc, hl]
  refine ⟨fun hf => ?_, fun hsd => ?_, fun hsd => ?_, ?_, ?_, fun hsd ha => ?_⟩
  · rcases hs with hs | ⟨-, hs⟩ | hs <;> rw [hs] at hf
    · rw [hd]; exact h.flushing_deadline hf
    · cases hf
    · cases hf
  · obtain ⟨h1, h2, h3, h4⟩ := h.after_swap (hsw.1 hsd)
    refine ⟨hq.trans h1, hp.trans h2, ?_, hd ▸ h4⟩
    rcases hs with hs | ⟨-, hs⟩ | hs <;> rw [hs] <;> first | exact h3 | decide
  · obtain ⟨h1, h2⟩ := h.before_swap (mt hsw.2 hsd)
    refine ⟨hr h1, fun x hx => ?_⟩
    rcases List.mem_append.1 hx with hx | hx
    · exact hk.2 x hx
    · exact h2 x (List.mem_append_right _ hx)
  · rw [htr, filter_taken_append hevs]; exact h.single
  · intro p t hpt ht op t' hop
    rw [htr] at hpt hop
    rcases List.mem_append.1 hpt with hpt | hpt
    · exact h.complete p t hpt ht op t' ((mem_lookup_append hevs).1 hop)
    · simpa [Event.isSwapOrLookup] using hevs _ hpt
  · intro op t hop
    rw [htr, mem_lookup_append hevs] at hop
    rw [hq]
    refine h.queued (mt hsw.2 hsd) ?_ op t hop
    rcases hs with hs | ⟨hs, -⟩ | hs
    · rwa [← hs]
    · rw [hs]; decide
    · exact absurd hs ha

/-- `TabletLookupFinished`: its op was pending, so no swap has happened; a found tablet queues
the op. -/
theorem SwapInvOf.lookup {op : ℕ} {r : LookupResult} (h : s.SwapInvOf (.addTail op :: R))
    (hl : LookupEffect f op r s sd k) : sd.SwapInvOf (k ++ R) := by
  have hns := h.not_swapped (by simp)
  have key : sd.trace = s.trace ++ [.lookupFinished op r] ∧ sd.rpcs = s.rpcs ∧
      sd.deadline = s.deadline ∧ sd.state = s.state ∧ (∀ fr ∈ k, fr.isFlushBuffer = false) ∧
      (sd.state ≠ .kAborted → (∀ t, r = .ok t → sd.opsQueue = s.opsQueue ++ [op]) ∧
        ∀ x ∈ s.opsQueue, x ∈ sd.opsQueue) := by
    cases hl with
    | aborted ha => simp [ha]
    | found t _ hr => subst hr; simp +contextual [Frame.isFlushBuffer]
    | failed st _ hr => subst hr; simp [Frame.isFlushBuffer]
  obtain ⟨htr, hr, hd, hs, hk, hq⟩ := key
  have hsw : ¬sd.Swapped := by
    rintro ⟨p, t, hpt⟩
    rw [htr] at hpt
    rcases List.mem_append.1 hpt with hpt | hpt
    · exact hns ⟨p, t, hpt⟩
    · simp at hpt
  refine ⟨fun hf => hd ▸ h.flushing_deadline (hs ▸ hf), fun hsd => absurd hsd hsw,
    fun _ => ⟨hr ▸ (h.before_swap hns).1, fun x hx => ?_⟩, ?_, ?_, fun _ ha => ?_⟩
  · rcases List.mem_append.1 hx with hx | hx
    · exact hk x hx
    · exact (h.before_swap hns).2 x (.tail _ hx)
  · rw [htr, List.filter_append]
    simpa [Event.taken] using h.single
  · intro p t hpt
    rw [htr] at hpt
    rcases List.mem_append.1 hpt with hpt | hpt
    · exact absurd ⟨p, t, hpt⟩ hns
    · simp at hpt
  · intro x t hx
    rw [htr] at hx
    obtain ⟨hok, hsub⟩ := hq ha
    rcases List.mem_append.1 hx with hx | hx
    · exact hsub x (h.queued hns (hs ▸ ha) x t hx)
    · simp only [List.mem_singleton, Event.lookupFinished.injEq] at hx
      rw [hok t hx.2.symm, hx.1]
      simp

/-- The swap of `FlushBuffersIfReady` happens with no lookup pending, takes the whole queue,
and creates the batch's `FlushBuffer` calls. -/
theorem SwapInvOf.swap (hc : s.CensusOf (.flushBuffersIfReady :: R))
    (h : s.SwapInvOf (.flushBuffersIfReady :: R)) (hflush : s.state = .kFlushing)
    (hlk : s.outstandingLookups = 0) (p : Option (List ℕ)) :
    { s with opsQueue := [], trace := s.trace ++ [Event.swap p s.opsQueue] }.SwapInvOf
      ((planFlush f s.heap (s.forceConsistentRead || s.transaction) s.allowLocalCallsInCurrThread
        s.opsQueue).map Frame.flushBuffer ++ R) := by
  have hpend : s.pendingOf R = [] := by
    have := hc.outstanding_eq
    rw [hlk] at this
    rw [← List.length_eq_zero]
    simp only [pendingOf, List.flatMap_cons, Frame.lookupOps, List.nil_append] at this ⊢
    omega
  obtain ⟨hk1, hk2⟩ := flatMap_map_flushBuffer (planFlush f s.heap
    (s.forceConsistentRead || s.transaction) s.allowLocalCallsInCurrThread s.opsQueue)
  have hpend' : s.pendingOf (List.map Frame.flushBuffer (planFlush f s.heap
      (s.forceConsistentRead || s.transaction) s.allowLocalCallsInCurrThread s.opsQueue) ++ R) =
      [] := by
    simp only [pendingOf, List.flatMap_append, hk1, List.nil_append]
    simpa [pendingOf] using hpend
  refine ⟨fun _ => h.flushing_deadline hflush,
    fun _ => ⟨rfl, hpend', by rw [hflush]; decide, h.flushing_deadline hflush⟩,
    fun hns => absurd (swapped_of_mem (List.mem_append_right _ (List.mem_singleton_self _))) hns,
    ?_, ?_,
    fun hns => absurd (swapped_of_mem (List.mem_append_right _ (List.mem_singleton_self _))) hns⟩
  · by_cases hsw : s.Swapped
    · rw [List.filter_append, (h.after_swap hsw).1]
      simpa [Event.taken] using h.single
    · rw [List.filter_append, filter_taken_eq_nil hsw, List.nil_append]
      exact List.length_filter_le _ _
  · intro p' t hpt ht op t' hop
    rcases List.mem_append.1 hpt with hpt | hpt
    · exact h.complete p' t hpt ht op t' (by simpa using hop)
    · simp only [List.mem_singleton, Event.swap.injEq] at hpt
      rw [hpt.2]
      rw [hpt.2] at ht
      have hns : ¬s.Swapped := fun hsw => ht (h.after_swap hsw).1
      exact h.queued hns (by rw [hflush]; decide) op t' (by simpa using hop)

/-- `FlushBuffer`: a call exists only after the swap, so the new RPC changes nothing the
invariant reads. -/
theorem SwapInvOf.flushBuffer {c : FlushBufferCall} (h : s.SwapInvOf (.flushBuffer c :: R))
    (rpc : AsyncRpc) : { s with rpcs := s.rpcs ++ [rpc] }.SwapInvOf R := by
  have hsw : s.Swapped := by_contra fun hns => by
    simpa [Frame.isFlushBuffer] using (h.before_swap hns).2 _ (.head _)
  obtain ⟨h1, h2, h3, h4⟩ := h.after_swap hsw
  exact ⟨h.flushing_deadline, fun _ => ⟨h1, by simpa [pendingOf] using h2, h3, h4⟩,
    fun hns => absurd hsw hns, h.single, h.complete, fun hns => absurd hsw hns⟩

/-- `Add`: the batch is still gathering, so no swap has happened. -/
theorem SwapInvOf.insertOp {op : InFlightOp} (h : s.SwapInvOf R)
    (hst : s.state = .kGatheringOps) :
    (s.insertOp op).SwapInvOf (.addTail s.nextOpSequenceNumber :: R) := by
  have hns : ¬s.Swapped := fun hs => (h.after_swap hs).2.2.1 hst
  obtain ⟨h1, h2⟩ := h.before_swap hns
  refine SwapInvOf.of_not_swapped hns h.flushing_deadline ⟨h1, ?_⟩ (h.queued hns)
  simpa [Frame.isFlushBuffer] using h2

/-- The rest of `Add` without a tablet: its op stays pending. -/
theorem SwapInvOf.register {op : ℕ} (h : s.SwapInvOf (.addTail op :: R)) :
    { s with lookups := s.lookups ++ [op] }.SwapInvOf R := by
  have hns := h.not_swapped (by simp)
  exact SwapInvOf.of_not_swapped hns h.flushing_deadline
    ⟨(h.before_swap hns).1, fun x hx => (h.before_swap hns).2 x (.tail _ hx)⟩ (h.queued hns)

/-- A lookup the meta cache answers goes back to a thread: it stays pending. -/
theorem SwapInvOf.unregister {op : ℕ} (h : s.SwapInvOf R) (hop : op ∈ s.lookups) :
    { s with lookups := s.lookups.erase op }.SwapInvOf (.addTail op :: R) := by
  have hns := h.not_swapped (by simp [pendingOf]; exact fun _ => List.ne_nil_of_mem hop)
  refine SwapInvOf.of_not_swapped hns h.flushing_deadline ⟨(h.before_swap hns).1, ?_⟩
    (h.queued hns)
  simpa [Frame.isFlushBuffer] using (h.before_swap hns).2

/-- `FlushAsync`: the batch was gathering, so no swap has happened; it sets the deadline. -/
theorem SwapInvOf.flushAsync {now : ℤ} (h : s.SwapInvOf R) (hst : s.state = .kGatheringOps) :
    { s with
      state := .kFlushing
      flushCallback := true
      deadline := some (s.computeDeadlineUnlocked now) }.SwapInvOf
      (.checkForFinishedFlush :: .flushBuffersIfReady :: R) := by
  have hns : ¬s.Swapped := fun hs => (h.after_swap hs).2.2.1 hst
  obtain ⟨h1, h2⟩ := h.before_swap hns
  refine SwapInvOf.of_not_swapped hns (fun _ => rfl) ⟨h1, ?_⟩
    (fun _ => h.queued hns (by rw [hst]; decide))
  simpa [Frame.isFlushBuffer] using h2

/-- `Abort` moves no queued or pending op. -/
theorem SwapInvOf.abort {st : Status} (h : s.SwapInvOf R) (ha : s.abort f st = .ok (sd, k)) :
    sd.SwapInvOf (k ++ R) := by
  obtain ⟨ops, errors, ce, he, rfl, -, rfl⟩ := abort_ok ha
  exact h.quiet (c := []) rfl (by split <;> simp [Frame.isFlushBuffer]) ⟨[], by simp, by simp⟩
    rfl rfl id rfl (.inr (.inr rfl))

/-- Every action keeps the invariant. -/
theorem SwapInvOf.act {a : Action} (hc : s.CensusOf (a.consumes ++ R))
    (h : s.SwapInvOf (a.consumes ++ R)) (ha : Effect f s a sd k) : sd.SwapInvOf (k ++ R) := by
  cases ha <;> simp only [Action.consumes] at h hc
  case addRejected => exact h
  case add hst _ => exact h.insertOp hst
  case flushAsync hst => exact h.flushAsync hst
  case abort ha => exact h.abort ha
  case transactionFailed ha =>
    exact SwapInvOf.abort (s := { s with waiters := s.waiters - 1 })
      ⟨h.1, h.2, h.3, h.4, h.5, h.6⟩ ha
  case lookupFinished hop hl => exact (h.unregister hop).lookup hl
  case addTailFound hl => exact h.lookup hl
  case addTailLookup => exact h.register
  case swap hflush hlk _ => exact SwapInvOf.swap hc h hflush hlk _
  case flushBuffer => exact h.flushBuffer _
  case rpcFailed =>
    rw [foldl_combineErrorUnlocked]
    exact h.quiet (c := []) rfl (by simp) ⟨[], by simp, by simp⟩ rfl rfl (by simp) rfl (.inl rfl)
  case rpcRemoved hrm =>
    obtain ⟨ops, rfl, -⟩ := removeInFlightOpsAfterFlushing_ok hrm
    exact h.quiet (c := []) rfl (by simp) ⟨[], by simp, by simp⟩ rfl rfl (by simp) rfl (.inl rfl)
  case rpcNotified =>
    exact h.quiet (c := []) rfl (by simp [Frame.isFlushBuffer])
      ⟨_, rfl, by split <;> simp [Event.isSwapOrLookup]⟩ rfl rfl (by simp) rfl (.inl rfl)
  case setTimeout | transactionReady | rpcFinished | rpcRowError | rpcRowErrorSkipped |
      rpcRowErrorsDone =>
    exact h.quiet (c := []) rfl (by simp [Frame.isFlushBuffer]) ⟨[], by simp, by simp⟩ rfl rfl
      (by simp) rfl (.inl rfl)
  case prepareDeferred | runCallbackTail =>
    exact h.quiet (c := [_]) rfl (by simp) ⟨_, rfl, by simp [Event.isSwapOrLookup]⟩ rfl rfl id rfl
      (.inl rfl)
  case checkFinished hs _ =>
    exact h.quiet (c := [_]) rfl (by simp [Frame.isFlushBuffer]) ⟨[], by simp, by simp⟩ rfl rfl id
      rfl (.inr (.inl ⟨hs, rfl⟩))
  case checkNotFinished | flushFinished | runCallback | flushNotReady =>
    exact h.quiet (c := [_]) rfl (by simp [Frame.isFlushBuffer]) ⟨[], by simp, by simp⟩ rfl rfl id
      rfl (.inl rfl)

/-- Every step keeps the invariant. -/
theorem SwapInv.step {s s' : Batcher} {l : Label} (hc : s.Census) (h : s.SwapInv)
    (hs : s.step f l = some (.ok s')) : s'.SwapInv := by
  obtain ⟨a, sd, k, R, ha, heq, hp, hp', -⟩ := step_ok hs
  have h' : sd.SwapInvOf s'.frames := ((h.perm hp).act (hc.perm hp) ha).perm hp'.symm
  rw [SwapInv, heq]
  exact ⟨h'.1, h'.2, h'.3, h'.4, h'.5, h'.6⟩

theorem swapInv_init (transaction forceConsistentRead allowLocalCallsInCurrThread : Bool) :
    (Batcher.init transaction forceConsistentRead allowLocalCallsInCurrThread).SwapInv :=
  SwapInvOf.of_not_swapped (by simp [Swapped, init]) (by simp [init]) ⟨rfl, by simp [frames, init]⟩
    (by simp [init])

theorem swapInv_reachable {allowed : Batcher → Label → Prop} (h : Reachable f allowed s) :
    s.SwapInv :=
  h.invariant swapInv_init fun hr hs _ hstep => hs.step (census_reachable hr) hstep

/-- **One planning pass.**  In every run, whatever the order of the lookups' answers and of the
`FlushBuffersIfReady` triggers: a `FlushBuffer` call is pending only once `FlushAsync` has set
the deadline and no lookup is pending; at most one swap takes a non-empty list out of
`ops_queue_`; and that list holds every op whose lookup succeeded. -/
theorem flush_single_pass (h : Reachable f anyStep s) :
    (∀ c, Frame.flushBuffer c ∈ s.frames → s.deadline.isSome ∧ s.pendingLookups = []) ∧
    (s.trace.filter fun e => !e.taken.isEmpty).length ≤ 1 ∧
    ∀ p taken, Event.swap p taken ∈ s.trace → taken ≠ [] →
      ∀ op t, Event.lookupFinished op (.ok t) ∈ s.trace → op ∈ taken := by
  have hs := swapInv_reachable h
  refine ⟨fun c hc => ?_, hs.single, hs.complete⟩
  have hsw : s.Swapped := by_contra fun hns => by
    simpa [Frame.isFlushBuffer] using (hs.before_swap hns).2 _ hc
  exact ⟨(hs.after_swap hsw).2.2.2, (hs.after_swap hsw).2.1⟩

/-- A write, a consistent-prefix read whose tablet the meta cache looks up, and a leader read,
on two tablets: one swap takes all three, one RPC is sent and two calls are pending. -/
theorem flush_single_pass_mixed_batch :
    ∃ s : Batcher, Reachable ⟨false, false, 1⟩ anyStep s ∧
      Event.swap none [0, 2, 1] ∈ s.trace ∧ s.rpcs.length = 1 ∧
      (s.frames.filter Frame.isFlushBuffer).length = 2 ∧
      (∀ c, Frame.flushBuffer c ∈ s.frames → s.deadline.isSome ∧ s.pendingLookups = []) ∧
      (s.trace.filter fun e => !e.taken.isEmpty).length ≤ 1 ∧
      ∀ p taken, Event.swap p taken ∈ s.trace → taken ≠ [] →
        ∀ op t, Event.lookupFinished op (.ok t) ∈ s.trace → op ∈ taken := by
  have hrun : (Batcher.init false false false).run ⟨false, false, 1⟩
      [.add ⟨.qlWrite, false, .strong, false, 2, .ok "k", false, none⟩,
        .add ⟨.qlRead, true, .consistentPrefix, false, 0, .ok "k", false, none⟩,
        .add ⟨.qlRead, true, .strong, false, 1, .ok "k", false, none⟩, .flushAsync 0,
        .run 0 false, .run 0 false, .run 0 false, .lookupFinished 1 (.ok 1), .run 1 false,
        .run 3 false] = some (.ok _) := rfl
  have hr := Reachable.run (.init false false false) (fun _ _ _ => trivial) hrun
  exact ⟨_, hr, by decide, rfl, rfl, flush_single_pass hr⟩

/-- **What `CountBufferedOperations` counts.**  In every run, while the batch gathers ops,
the ops it counts are the admitted ops whose lookup is pending and those queued: before the swap
no op is in a local list or an RPC. -/
theorem count_buffered_gathering {allowed : Batcher → Label → Prop} (h : Reachable f allowed s)
    (hg : s.state = .kGatheringOps) :
    s.countBufferedOperations = s.pendingLookups.length + s.opsQueue.length := by
  have hc := census_reachable h
  have hw := swapInv_reachable h
  obtain ⟨hr, hfb⟩ := hw.before_swap fun hsw => (hw.after_swap hsw).2.2.1 hg
  have hops : s.ops.Perm s.census := List.perm_iff_count.2 fun x =>
    ((hc.census_at x).2.2.2.2.1 (by rw [hg]; decide)).symm
  have hloc : s.frames.flatMap Frame.localOps = [] := List.flatMap_eq_nil_iff.2 fun x hx => by
    cases x with
    | flushBuffer => cases hfb _ hx
    | _ => rfl
  rw [countBufferedOperations, if_pos hg, hops.length_eq]
  simp [census, censusOf, bufferedOf, inFlightOps, hr, hloc, pendingLookups]

/-- One op queued, one still looking up its tablet. -/
theorem count_buffered_gathering_two :
    ∃ s : Batcher, Reachable ⟨false, false, 1⟩ anyStep s ∧ s.state = .kGatheringOps ∧
      s.countBufferedOperations = 2 ∧ s.opsQueue = [0] ∧
      s.countBufferedOperations = s.pendingLookups.length + s.opsQueue.length := by
  have hrun : (Batcher.init false false false).run ⟨false, false, 1⟩
      [.add ⟨.qlWrite, false, .strong, false, 1, .ok "k", false, none⟩,
        .add ⟨.qlWrite, false, .strong, false, 0, .ok "k", false, none⟩, .run 0 false,
        .run 0 false] = some (.ok _) := rfl
  have hr := Reachable.run (.init false false false) (fun _ _ _ => trivial) hrun
  exact ⟨_, hr, rfl, rfl, rfl, count_buffered_gathering hr rfl⟩

end Batcher

end ClientBatcher
