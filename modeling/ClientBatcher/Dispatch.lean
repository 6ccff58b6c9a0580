import ClientBatcher.Swap

/-!
# The order of dispatch

The ops handed to `FlushBuffer` are, in order, the ops of the RPCs already created (in the order
of creation) followed by the ranges of the `FlushBuffer` calls still to be made.  Only the one
swap that takes a non-empty list creates calls, all in the thread that made the swap, which then
makes them one after the other; so this list is the sorted list of that swap, and it only ever
changes by moving a range from the calls to a new RPC at its end.

* `Effect.heap` : an action changes the record of a pending op (its lookup's answer) or of the op
  it admits, and no other.
* `Effect.handed` : an action moves a range from a `FlushBuffer` call to the RPCs, or, at the
  swap, makes the calls from the sorted queue and records the swap.
* `OrderInv` : sequence numbers are admission indices, at most one thread holds calls, and the
  handed-out list is strictly sorted by the comparator.
* `dispatch_order` : in every run the RPCs' ops, in order of creation, are strictly sorted by
  (tablet, op group, sequence number), and an op's sequence number is its admission index.
-/

namespace ClientBatcher

namespace Batcher

variable {f : Flags} {s sd : Batcher} {k R : List Frame}

/-- The ops of the `FlushBuffer` calls the frames `fr` hold, in order. -/
def localOf (fr : List Frame) : List ℕ := fr.flatMap Frame.localOps

/-- The ops handed to `FlushBuffer`, in order: the RPCs' ops, then the calls still to be made. -/
def handedOut (s : Batcher) : List ℕ := s.dispatched ++ localOf s.frames

theorem handedOut_with_threads (s : Batcher) (ts : List (List Frame)) :
    ({ s with threads := ts } : Batcher).handedOut = s.dispatched ++ localOf ts.flatten := rfl

/-! ### What an action does to the heap and to the handed-out ops -/

theorem LookupEffect.heap {op x : ℕ} {r : LookupResult} (hl : LookupEffect f op r s sd k)
    (hx : x ≠ op) : sd.heap x = s.heap x := by
  cases hl <;> simp [Function.update_apply, hx, -recordLookup_heap]

theorem LookupEffect.seq {op x : ℕ} {r : LookupResult} (hl : LookupEffect f op r s sd k) :
    (sd.heap x).sequenceNumber = (s.heap x).sequenceNumber := by
  by_cases hx : x = op
  · subst hx
    cases hl <;> simp [-recordLookup_heap]
  · rw [hl.heap hx]

/-- **What an action does to the heap.**  The record of an op changes only if the action
answers its pending lookup, which keeps its sequence number, or admits it. -/
theorem Effect.heap {a : Action} (h : Effect f s a sd k) (x : ℕ) :
    sd.heap x = s.heap x ∨
    (x ∈ s.pendingOf a.consumes ∧ (sd.heap x).sequenceNumber = (s.heap x).sequenceNumber) ∨
    (x = s.nextOpSequenceNumber ∧ (sd.heap x).sequenceNumber = x) := by
  have lookup : ∀ {t : Batcher} {op : ℕ} {r : LookupResult}, LookupEffect f op r t sd k →
      t.heap = s.heap → (x = op → x ∈ s.pendingOf a.consumes) →
      sd.heap x = s.heap x ∨
        (x ∈ s.pendingOf a.consumes ∧ (sd.heap x).sequenceNumber = (s.heap x).sequenceNumber) :=
    fun {t op r} hl hth hop => by
      by_cases hx : x = op
      · exact .inr ⟨hop hx, by rw [hl.seq, hth]⟩
      · exact .inl (by rw [hl.heap hx, hth])
  cases h
  case add =>
    by_cases hx : x = s.nextOpSequenceNumber
    · subst hx; exact .inr (.inr ⟨rfl, by simp⟩)
    · exact .inl (by simp [Function.update_apply, hx])
  case abort ha | transactionFailed ha =>
    obtain ⟨ops, errors, ce, he, rfl, -⟩ := abort_ok ha; exact .inl rfl
  case lookupFinished hop hl =>
    exact (lookup hl rfl fun hx => by
      simp [pendingOf, Action.consumes, hx, List.mem_of_mem_erase, hop]).imp_right .inl
  case addTailFound hl =>
    exact (lookup hl rfl fun hx => by simp [pendingOf, Action.consumes, hx]).imp_right .inl
  case rpcFailed => exact .inl (by simp [foldl_combineErrorUnlocked])
  case rpcRemoved hrm =>
    obtain ⟨ops, rfl, -⟩ := removeInFlightOpsAfterFlushing_ok hrm; exact .inl rfl
  all_goals exact .inl rfl

theorem flatMap_set_of_eq {α β : Type} {l : List α} {r : ℕ} {a b : α} (hb : l[r]? = some b)
    (g : α → List β) (hg : g a = g b) : (l.set r a).flatMap g = l.flatMap g := by
  obtain ⟨hr, rfl⟩ := List.getElem?_eq_some_iff.1 hb
  rw [List.set_eq_take_append_cons_drop, if_pos hr]
  conv_rhs => rw [← List.take_append_drop r l, List.drop_eq_getElem_cons hr]
  simp only [List.flatMap_append, List.flatMap_cons, hg]

/-- Replacing an RPC by one with the same ops keeps the dispatched ops. -/
theorem dispatched_setRpc {t : Batcher} {r : ℕ} {rpc rpc' : AsyncRpc} (hr : t.rpcs[r]? = some rpc)
    (hops : rpc'.ops = rpc.ops) : (t.setRpc r rpc').dispatched = t.dispatched :=
  flatMap_set_of_eq hr _ hops

/-- **What an action does to the handed-out ops.**  Either it makes no `FlushBuffer` call and
moves the range of the call it makes, if any, to a new RPC at the end; or it is the swap, which
leaves the RPCs and the heap alone and makes the calls from the sorted queue. -/
theorem Effect.handed {a : Action} (h : Effect f s a sd k) :
    (localOf k = [] ∧ sd.dispatched = s.dispatched ++ localOf a.consumes) ∨
    (∃ p, a = .exec .flushBuffersIfReady p ∧ s.state = .kFlushing ∧ s.outstandingLookups = 0 ∧
      sd.dispatched = s.dispatched ∧ sd.heap = s.heap ∧
      sd.trace = s.trace ++ [.swap (if s.transaction then some s.ops else none) s.opsQueue] ∧
      localOf k = sortOps f s.heap s.opsQueue) := by
  have quiet : sd.dispatched = s.dispatched → localOf k = [] → localOf a.consumes = [] →
      localOf k = [] ∧ sd.dispatched = s.dispatched ++ localOf a.consumes := fun hr hk hc =>
    ⟨hk, by rw [hr, hc, List.append_nil]⟩
  cases h
  case swap hs hlk _ =>
    exact .inr ⟨_, rfl, hs, hlk, rfl, rfl, rfl,
      by rw [localOf, (flatMap_map_flushBuffer _).2, planFlush_ops]⟩
  case flushBuffer => exact .inl ⟨rfl, by simp [dispatched, localOf, Action.consumes]⟩
  case abort ha | transactionFailed ha =>
    obtain ⟨ops, errors, ce, he, rfl, -, rfl⟩ := abort_ok ha
    exact .inl (quiet rfl (by split <;> rfl) rfl)
  case lookupFinished hl | addTailFound hl => cases hl <;> exact .inl (quiet rfl rfl rfl)
  case rpcFinished hr _ _ | rpcRowError hr _ _ | rpcRowErrorSkipped hr _ _ |
      rpcRowErrorsDone hr _ | rpcNotified hr _ =>
    exact .inl (quiet (dispatched_setRpc hr rfl) rfl rfl)
  case rpcFailed hr _ =>
    exact .inl (quiet (by rw [foldl_combineErrorUnlocked]; exact dispatched_setRpc hr rfl) rfl rfl)
  case rpcRemoved hr _ hrm =>
    obtain ⟨ops, rfl, -⟩ := removeInFlightOpsAfterFlushing_ok hrm
    exact .inl (quiet (dispatched_setRpc hr rfl) rfl rfl)
  all_goals exact .inl (quiet rfl rfl rfl)

theorem LookupEffect.next {op : ℕ} {r : LookupResult} (hl : LookupEffect f op r s sd k) :
    sd.nextOpSequenceNumber = s.nextOpSequenceNumber := by
  cases hl <;> rfl

/-- Only `Add` admits an op, and it numbers it `nextOpSequenceNumber`. -/
theorem Effect.next {a : Action} (h : Effect f s a sd k) :
    sd.nextOpSequenceNumber = s.nextOpSequenceNumber ∨
      (sd.nextOpSequenceNumber = s.nextOpSequenceNumber + 1 ∧
        (sd.heap s.nextOpSequenceNumber).sequenceNumber = s.nextOpSequenceNumber) := by
  cases h
  case add => exact .inr ⟨rfl, by simp⟩
  case abort ha | transactionFailed ha =>
    obtain ⟨ops, errors, ce, he, rfl, -⟩ := abort_ok ha; exact .inl rfl
  case lookupFinished hl | addTailFound hl => exact .inl hl.next
  case rpcFailed => exact .inl (by simp [foldl_combineErrorUnlocked])
  case rpcRemoved hrm =>
    obtain ⟨ops, rfl, -⟩ := removeInFlightOpsAfterFlushing_ok hrm; exact .inl rfl
  all_goals exact .inl rfl

/-- Sequence numbers are admission indices after every action. -/
theorem Effect.seq {a : Action} (h : Effect f s a sd k)
    (hseq : ∀ x < s.nextOpSequenceNumber, (s.heap x).sequenceNumber = x) :
    ∀ x < sd.nextOpSequenceNumber, (sd.heap x).sequenceNumber = x := by
  intro x hx
  rcases Nat.lt_or_ge x s.nextOpSequenceNumber with hlt | hge
  · rcases h.heap x with he | ⟨-, he⟩ | ⟨-, he⟩
    · rw [he, hseq x hlt]
    · rw [he, hseq x hlt]
    · exact he
  · rcases h.next with hn | ⟨hn, he⟩
    · omega
    · obtain rfl : x = s.nextOpSequenceNumber := by omega
      exact he

/-! ### Census facts about the handed-out ops -/

@[simp] theorem localOf_nil : localOf [] = [] := rfl

@[simp] theorem localOf_cons (fr : Frame) (t : List Frame) :
    localOf (fr :: t) = fr.localOps ++ localOf t := rfl

@[simp] theorem localOf_append (t t' : List Frame) :
    localOf (t ++ t') = localOf t ++ localOf t' := by
  simp [localOf]

theorem localOf_eq_nil {fr : List Frame} (h : ∀ x ∈ fr, x.isFlushBuffer = false) :
    localOf fr = [] :=
  List.flatMap_eq_nil_iff.2 fun x hx => by
    cases x with
    | flushBuffer => cases h _ hx
    | _ => rfl

/-- An op queued, in a `FlushBuffer` call or in an RPC is there once, its lookup is over, and it
is admitted. -/
theorem CensusOf.placed {fr : List Frame} (hc : s.CensusOf fr) {x : ℕ}
    (hx : 0 < (s.bufferedOf fr).count x + s.dispatched.count x) :
    (s.bufferedOf fr).count x + s.dispatched.count x = 1 ∧ x ∉ s.pendingOf fr ∧
      x < s.nextOpSequenceNumber := by
  obtain ⟨hp, hone, -⟩ := (hc.census_at x).of_buffered hx
  have hlt : x < s.nextOpSequenceNumber := Nat.lt_of_not_le fun hle => by
    have := (hc.census_at x).2.1 hle
    rw [count_placesOf] at this
    omega
  exact ⟨hone, List.count_eq_zero.1 hp, hlt⟩

theorem Census.handed (hc : s.Census) {x : ℕ} (hx : x ∈ s.handedOut) :
    x ∉ s.pendingLookups ∧ x < s.nextOpSequenceNumber := by
  have : 0 < (s.bufferedOf s.frames).count x + s.dispatched.count x := by
    rcases List.mem_append.1 hx with hx | hx
    · have := List.count_pos_iff.2 hx; omega
    · have := List.count_pos_iff.2 hx; simp only [count_bufferedOf]; unfold localOf at this; omega
  exact (CensusOf.placed hc this).2

theorem Census.queued (hc : s.Census) {x : ℕ} (hx : x ∈ s.opsQueue) : x < s.nextOpSequenceNumber :=
  (CensusOf.placed hc (by have := List.count_pos_iff.2 hx; simp only [count_bufferedOf]; omega)).2.2

theorem Census.nodup_queue (hc : s.Census) : s.opsQueue.Nodup :=
  List.nodup_iff_count_le_one.2 fun x => by
    rcases Nat.eq_zero_or_pos (s.opsQueue.count x) with h0 | hpos
    · omega
    · have := (CensusOf.placed hc (x := x) (by simp only [count_bufferedOf]; omega)).1
      simp only [count_bufferedOf] at this
      omega

theorem mem_pendingOf_mono {c fr : List Frame} (hsub : ∀ x ∈ c, x ∈ fr) {x : ℕ}
    (hx : x ∈ s.pendingOf c) : x ∈ s.pendingOf fr := by
  simp only [pendingOf, List.mem_append, List.mem_flatMap] at hx ⊢
  exact hx.imp (fun ⟨y, hy, hxy⟩ => ⟨y, hsub y hy, hxy⟩) id

/-- An action keeps the record of an admitted op whose lookup it does not answer. -/
theorem Effect.heap_of_not_pending {a : Action} (h : Effect f s a sd k) {x : ℕ}
    (hp : x ∉ s.pendingOf a.consumes) (hlt : x < s.nextOpSequenceNumber) :
    sd.heap x = s.heap x := by
  rcases h.heap x with he | ⟨hm, -⟩ | ⟨rfl, -⟩
  · exact he
  · exact absurd hm hp
  · exact absurd hlt (lt_irrefl _)

/-- An action keeps the records of the handed-out ops. -/
theorem Effect.heap_handed {a : Action} (hc : s.Census) (h : Effect f s a sd k)
    (hsub : ∀ fr ∈ a.consumes, fr ∈ s.frames) {x : ℕ} (hx : x ∈ s.handedOut) :
    sd.heap x = s.heap x := by
  obtain ⟨hp, hlt⟩ := hc.handed hx
  exact h.heap_of_not_pending (fun hm => hp (mem_pendingOf_mono hsub hm)) hlt

/-- An action keeps the records of the ops queued, in a `FlushBuffer` call or in an RPC. -/
theorem Effect.heap_placed {a : Action} (hc : s.CensusOf (a.consumes ++ R))
    (h : Effect f s a sd k) {x : ℕ}
    (hx : 0 < (s.bufferedOf (a.consumes ++ R)).count x + s.dispatched.count x) :
    sd.heap x = s.heap x := by
  obtain ⟨-, hp, hlt⟩ := CensusOf.placed hc hx
  exact h.heap_of_not_pending
    (fun hm => hp (mem_pendingOf_mono (fun _ => List.mem_append_left _) hm)) hlt

/-! ### The threads that hold `FlushBuffer` calls -/

/-- The number of threads that hold `FlushBuffer` calls. -/
def busy (ts : List (List Frame)) : ℕ := ts.countP fun t => localOf t ≠ []

@[simp] theorem busy_nil : busy [] = 0 := rfl

@[simp] theorem busy_cons (t : List Frame) (ts : List (List Frame)) :
    busy (t :: ts) = busy ts + if localOf t = [] then 0 else 1 := by
  simp [busy, List.countP_cons]

@[simp] theorem busy_append (ts ts' : List (List Frame)) : busy (ts ++ ts') = busy ts + busy ts' :=
  List.countP_append _ _ _

theorem busy_eq_zero {ts : List (List Frame)} : busy ts = 0 ↔ localOf ts.flatten = [] := by
  simp only [busy, List.countP_eq_zero, decide_eq_true_eq, not_not, localOf,
    List.flatMap_eq_nil_iff, List.mem_flatten]
  exact ⟨fun h fr ⟨t, ht, hfr⟩ => h t ht fr hfr, fun h t ht fr hfr => h fr ⟨t, ht, hfr⟩⟩

theorem busy_resume (ts : List (List Frame)) (k : List Frame) :
    busy (resume ts k) = busy ts + busy [k] := by
  unfold resume
  split_ifs with hk <;> simp [hk]

/-- A thread that runs a frame making no call holds no more calls than before. -/
theorem busy_exec {A B : List (List Frame)} {fr : Frame} {rest k : List Frame}
    (hk : localOf k = []) :
    busy (resume (A ++ B) (k ++ rest)) ≤ busy (A ++ (fr :: rest) :: B) := by
  simp only [busy_resume, busy_append, busy_cons, busy_nil, localOf_append, hk, List.nil_append,
    localOf_cons, List.append_eq_nil]
  by_cases h1 : localOf rest = [] <;> by_cases h2 : fr.localOps = [] <;>
    simp [h1, h2, Nat.add_assoc]

/-- While at most one thread holds calls, where the running thread's frames go does not change the
order of the calls. -/
theorem handedOut_exec {A B : List (List Frame)} {fr : Frame} {rest k : List Frame} (d : List ℕ)
    (hb : busy (A ++ (fr :: rest) :: B) ≤ 1) (hk : localOf k = []) :
    d ++ fr.localOps ++ localOf (resume (A ++ B) (k ++ rest)).flatten =
      d ++ localOf (A ++ (fr :: rest) :: B).flatten := by
  simp only [flatten_resume, List.flatten_append, List.flatten_cons, localOf_append, localOf_cons,
    hk, List.nil_append, List.append_assoc]
  by_cases ht : fr.localOps ++ localOf rest = []
  · obtain ⟨h1, h2⟩ := List.append_eq_nil.1 ht
    simp only [h1, h2, List.nil_append, List.append_nil]
  · have hAB : busy A = 0 ∧ busy B = 0 := by
      rw [busy_append, busy_cons, localOf_cons, if_neg ht] at hb
      omega
    simp only [busy_eq_zero.1 hAB.1, busy_eq_zero.1 hAB.2, List.nil_append, List.append_nil]

/-! ### The invariant -/

/-- The invariant of the dispatch order: sequence numbers are admission indices, at most one
thread holds `FlushBuffer` calls, and the handed-out ops are strictly sorted by the comparator
of `FlushBuffersIfReady`. -/
structure OrderInv (f : Flags) (s : Batcher) : Prop where
  seq : ∀ x < s.nextOpSequenceNumber, (s.heap x).sequenceNumber = x
  one_local : busy s.threads ≤ 1
  sorted : s.handedOut.Sorted fun a b => opLess f (s.heap a) (s.heap b) = true

/-- A step that keeps the handed-out ops and their records keeps the invariant. -/
theorem OrderInv.of_handedOut {s' : Batcher} (h : s.OrderInv f)
    (hseq : ∀ x < s'.nextOpSequenceNumber, (s'.heap x).sequenceNumber = x)
    (hbusy : busy s'.threads ≤ busy s.threads) (hhand : s'.handedOut = s.handedOut)
    (hheap : ∀ x ∈ s.handedOut, s'.heap x = s.heap x) : s'.OrderInv f :=
  ⟨hseq, hbusy.trans h.one_local,
    hhand ▸ h.sorted.imp_of_mem fun ha hb hab => by rwa [hheap _ ha, hheap _ hb]⟩

/-- The swap that takes a non-empty list: nothing was handed out before it, and its calls are the
sorted list. -/
theorem OrderInv.swap {s' : Batcher} (hc : s.Census) (hw : s.SwapInv) (h : s.OrderInv f)
    (hq : s.opsQueue ≠ [])
    (hseq : ∀ x < s'.nextOpSequenceNumber, (s'.heap x).sequenceNumber = x)
    (hbusy : busy s'.threads ≤ 1) (hhand : s'.handedOut = s.dispatched ++ localOf s.frames ++
      sortOps f s.heap s.opsQueue) (hheap : s'.heap = s.heap) : s'.OrderInv f := by
  have hns : ¬s.Swapped := fun hsw => hq (hw.after_swap hsw).1
  obtain ⟨hr, hfb⟩ := hw.before_swap hns
  have hd : s.dispatched = [] := by simp [dispatched, hr]
  refine ⟨hseq, hbusy, ?_⟩
  rw [hhand, hd, localOf_eq_nil hfb, List.nil_append, List.nil_append, hheap]
  refine sorted_sortOps (fun a ha b hb hab => ?_) hc.nodup_queue
  rwa [h.seq a (hc.queued ha), h.seq b (hc.queued hb)] at hab

/-- Every step keeps the invariant. -/
theorem OrderInv.step {s s' : Batcher} {l : Label} (hc : s.Census) (hw : s.SwapInv)
    (h : s.OrderInv f) (hs : s.step f l = some (.ok s')) : s'.OrderInv f := by
  obtain ⟨a, sd, k, ha, hth⟩ := step_cases hs
  have hseq := ha.seq h.seq
  rcases hth with ⟨l', rfl, rfl⟩ | ⟨fr, p, A, B, rest, rfl, hts, rfl⟩
  · rcases ha.handed with ⟨hk, hd⟩ | ⟨p, hp, -⟩
    · refine h.of_handedOut hseq (by simp [busy_resume, hk]) ?_
        fun x hx => ha.heap_handed hc (by simp [Action.consumes]) hx
      rw [handedOut_with_threads, hd]
      simp [handedOut, frames, hk, Action.consumes]
    · cases hp
  · have hfr : fr ∈ s.frames := by simp [frames, hts]
    have hheap := fun x => ha.heap_handed (x := x) hc (by simpa [Action.consumes] using hfr)
    have same : localOf k = [] → sd.dispatched = s.dispatched ++ fr.localOps →
        { sd with threads := resume (A ++ B) (k ++ rest) }.OrderInv f := fun hk hd =>
      h.of_handedOut hseq (by rw [hts]; exact busy_exec hk)
        (by rw [handedOut_with_threads, hd, handedOut, frames, hts]
            exact handedOut_exec _ (hts ▸ h.one_local) hk)
        hheap
    rcases ha.handed with ⟨hk, hd⟩ | ⟨p, hp, -, -, hd, hh, -, hk⟩
    · exact same hk (by simpa [Action.consumes, localOf] using hd)
    · obtain ⟨rfl, -⟩ := Action.exec.inj hp
      by_cases hq : s.opsQueue = []
      · exact same (by rw [hk, hq]; rfl) (by simp [hd])
      · have hnil : localOf s.frames = [] := by
          have hns : ¬s.Swapped := fun hsw => hq (hw.after_swap hsw).1
          exact localOf_eq_nil (hw.before_swap hns).2
        simp only [frames, hts, List.flatten_append, List.flatten_cons, localOf_append,
          localOf_cons, Frame.localOps, List.nil_append, List.append_eq_nil] at hnil
        refine h.swap hc hw hq hseq ?_ ?_ hh
        · have hA := busy_eq_zero.2 hnil.1
          have hB := busy_eq_zero.2 hnil.2.2
          simp only [busy_resume, busy_append, busy_cons, busy_nil, hA, hB]
          split_ifs <;> omega
        · rw [handedOut_with_threads, hd, frames, hts]
          simp [hk, hnil.1, hnil.2.1, hnil.2.2]

theorem orderInv_init (transaction forceConsistentRead allowLocalCallsInCurrThread : Bool) :
    (Batcher.init transaction forceConsistentRead allowLocalCallsInCurrThread).OrderInv f :=
  ⟨fun _ h => absurd h (Nat.not_lt_zero _), by simp [busy, init],
    by simp [handedOut, dispatched, init, frames]⟩

theorem orderInv_reachable {allowed : Batcher → Label → Prop} (h : Reachable f allowed s) :
    s.OrderInv f :=
  h.invariant orderInv_init fun hr ho _ hstep =>
    ho.step (census_reachable hr) (swapInv_reachable hr) hstep

/-- **The order of dispatch.**  In every run, whatever the order of the `Add` calls, the lookups'
answers and the `FlushBuffersIfReady` triggers: an op's sequence number is its admission index,
so sequence numbers are distinct and grow with the order of the `AddInFlightOp` critical
sections; and the ops of the RPCs, in the order `FlushBuffer` created them and in each RPC's
order, are strictly increasing in (tablet, op group, sequence number). -/
theorem dispatch_order (h : Reachable f anyStep s) :
    (∀ x < s.nextOpSequenceNumber, (s.heap x).sequenceNumber = x) ∧
    s.dispatched.Sorted fun a b => (s.heap a).tablet < (s.heap b).tablet ∨
      (s.heap a).tablet = (s.heap b).tablet ∧
        ((getOpGroup f (s.heap a)).toNat < (getOpGroup f (s.heap b)).toNat ∨
          (getOpGroup f (s.heap a)).toNat = (getOpGroup f (s.heap b)).toNat ∧
            (s.heap a).sequenceNumber < (s.heap b).sequenceNumber) := by
  have ho := orderInv_reachable h
  exact ⟨ho.seq, (List.pairwise_append.1 ho.sorted).1.imp opLess_iff.1⟩

/-- A write on tablet 2, then a consistent-prefix read and a leader read on tablet 1: they are
sent in the order leader read, consistent-prefix read, write. -/
theorem dispatch_order_mixed_batch :
    ∃ s : Batcher, Reachable ⟨false, false, 1⟩ anyStep s ∧ s.dispatched = [2, 1, 0] ∧
      (∀ x < s.nextOpSequenceNumber, (s.heap x).sequenceNumber = x) ∧
      s.dispatched.Sorted fun a b => (s.heap a).tablet < (s.heap b).tablet ∨
        (s.heap a).tablet = (s.heap b).tablet ∧
          ((getOpGroup ⟨false, false, 1⟩ (s.heap a)).toNat <
              (getOpGroup ⟨false, false, 1⟩ (s.heap b)).toNat ∨
            (getOpGroup ⟨false, false, 1⟩ (s.heap a)).toNat =
                (getOpGroup ⟨false, false, 1⟩ (s.heap b)).toNat ∧
              (s.heap a).sequenceNumber < (s.heap b).sequenceNumber) := by
  have hrun : (Batcher.init false false false).run ⟨false, false, 1⟩
      [.add ⟨.qlWrite, false, .strong, false, 2, .ok "k", false, none⟩,
        .add ⟨.qlRead, true, .consistentPrefix, false, 0, .ok "k", false, none⟩,
        .add ⟨.qlRead, true, .strong, false, 1, .ok "k", false, none⟩, .flushAsync 0,
        .run 0 false, .run 0 false, .run 0 false, .lookupFinished 1 (.ok 1), .run 1 false,
        .run 3 false, .run 3 false, .run 3 false] = some (.ok _) := rfl
  have hr := Reachable.run (.init false false false) (fun _ _ _ => trivial) hrun
  exact ⟨_, hr, rfl, dispatch_order hr⟩

/-- **Every sort of the queue is the model's.**  In every run, any list of the ops of
`ops_queue_` sorted by the comparator of `FlushBuffersIfReady`, such as the one `std::sort`
leaves in the local list, is the insertion sort `sortOps`: the queued ops are distinct and have
distinct sequence numbers, so the comparator orders any two of them. -/
theorem sortOps_unique {allowed : Batcher → Label → Prop} (h : Reachable f allowed s)
    {l : List ℕ} (hp : l.Perm s.opsQueue)
    (hl : l.Sorted fun a b => opLess f (s.heap a) (s.heap b) = true) :
    l = sortOps f s.heap s.opsQueue := by
  have hc := census_reachable h
  have ho := orderInv_reachable h
  haveI : IsAntisymm ℕ fun a b => opLess f (s.heap a) (s.heap b) = true :=
    ⟨fun a b hab hba => by rw [opLess_iff] at hab hba; omega⟩
  refine List.eq_of_perm_of_sorted (hp.trans (sortOps_perm _).symm) hl
    (sorted_sortOps (fun a ha b hb hab => ?_) hc.nodup_queue)
  rwa [ho.seq a (hc.queued ha), ho.seq b (hc.queued hb)] at hab

/-- Two ops queued for tablets in decreasing order: the sort swaps them. -/
theorem sortOps_unique_two_tablets :
    ∃ s : Batcher, Reachable ⟨false, false, 1⟩ anyStep s ∧ [1, 0].Perm s.opsQueue ∧
      ([1, 0] : List ℕ).Sorted (fun a b => opLess ⟨false, false, 1⟩ (s.heap a) (s.heap b) = true) ∧
      [1, 0] = sortOps ⟨false, false, 1⟩ s.heap s.opsQueue := by
  have hrun : (Batcher.init false false false).run ⟨false, false, 1⟩
      [.add ⟨.qlWrite, false, .strong, false, 2, .ok "k", false, none⟩,
        .add ⟨.qlWrite, false, .strong, false, 1, .ok "k", false, none⟩, .run 0 false,
        .run 0 false] = some (.ok _) := rfl
  have hr := Reachable.run (.init false false false) (fun _ _ _ => trivial) hrun
  refine ⟨_, hr, ?hp, ?hl, sortOps_unique hr ?hp ?hl⟩ <;> decide

end Batcher

end ClientBatcher
