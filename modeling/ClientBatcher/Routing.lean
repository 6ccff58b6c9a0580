import ClientBatcher.Dispatch

/-!
# Where each op is sent

`FlushBuffer` reads the tablet and the op group of its call's first op only: the RPC it creates
goes to that tablet, and its class (`WriteRpc`, or `ReadRpc` with a consistency level) is that
group's.  Every other op of the range travels in that RPC too.  The scan of `FlushBuffersIfReady`
makes each range homogeneous (`mem_planFlush_homogeneous`), and the record of an op does not
change once its lookup is over, so every op is sent where its own lookup and its own group say.

* `Effect.trace` : an action only appends to the trace.
* `RouteInvOf` : an op queued, in a call or in an RPC has its lookup's tablet recorded; every
  call is homogeneous; every RPC has the tablet and the class of each of its ops.
* `route_of_dispatched` : in every run, every op of an RPC is in that RPC once and in no other;
  the RPC goes to the tablet the op's lookup returned; and the RPC's class is the one of the op's
  group: a `WriteRpc` iff the op is not `read_only`, a `CONSISTENT_PREFIX` read iff the group is
  `kConsistentPrefixRead`, a leader read iff it is `kLeaderRead`.
-/

namespace ClientBatcher

namespace Batcher

variable {f : Flags} {s sd : Batcher} {c k R : List Frame}

/-- An action only appends to the trace. -/
theorem Effect.trace {a : Action} (h : Effect f s a sd k) : ∃ evs, sd.trace = s.trace ++ evs := by
  cases h
  case lookupFinished hl | addTailFound hl => cases hl <;> exact ⟨_, rfl⟩
  case abort ha | transactionFailed ha =>
    obtain ⟨ops, errors, ce, he, rfl, -⟩ := abort_ok ha; exact ⟨[], by simp⟩
  case rpcFailed => exact ⟨[], by simp [foldl_combineErrorUnlocked]⟩
  case rpcRemoved hrm =>
    obtain ⟨ops, rfl, -⟩ := removeInFlightOpsAfterFlushing_ok hrm; exact ⟨[], by simp⟩
  case rpcNotified | runCallbackTail | prepareDeferred | swap => exact ⟨_, rfl⟩
  all_goals exact ⟨[], by simp⟩

/-! ### The invariant -/

/-- The invariant of routing, for the batcher's fields `s` and the frames `fr` of its threads:
an op queued, in a `FlushBuffer` call or in an RPC carries the tablet its lookup returned; every
call's ops have the call's tablet and one group; every RPC has the tablet and the class of each
of its ops. -/
structure RouteInvOf (f : Flags) (s : Batcher) (fr : List Frame) : Prop where
  looked_up : ∀ x ∈ s.bufferedOf fr ++ s.dispatched,
    Event.lookupFinished x (.ok (s.heap x).tablet) ∈ s.trace
  calls : ∀ c, Frame.flushBuffer c ∈ fr → ∀ x ∈ c.ops,
    (s.heap x).tablet = c.tablet ∧ ∀ y ∈ c.ops, getOpGroup f (s.heap x) = getOpGroup f (s.heap y)
  rpcs : ∀ rpc ∈ s.rpcs, ∀ x ∈ rpc.ops,
    (s.heap x).tablet = rpc.tablet ∧ rpc.kind = rpcKindOf (getOpGroup f (s.heap x))

/-- The invariant of every run. -/
def RouteInv (f : Flags) (s : Batcher) : Prop := s.RouteInvOf f s.frames

theorem mem_placed_of_call {fr : List Frame} {c : FlushBufferCall} (hc : Frame.flushBuffer c ∈ fr)
    {x : ℕ} (hx : x ∈ c.ops) : x ∈ s.bufferedOf fr ++ s.dispatched :=
  List.mem_append_left _ (List.mem_append_right _ (List.mem_flatMap.2 ⟨_, hc, hx⟩))

theorem mem_placed_of_rpc {fr : List Frame} {rpc : AsyncRpc} (hr : rpc ∈ s.rpcs) {x : ℕ}
    (hx : x ∈ rpc.ops) : x ∈ s.bufferedOf fr ++ s.dispatched :=
  List.mem_append_right _ (List.mem_flatMap.2 ⟨_, hr, hx⟩)

theorem placed_pos {fr : List Frame} {x : ℕ} (hx : x ∈ s.bufferedOf fr ++ s.dispatched) :
    0 < (s.bufferedOf fr).count x + s.dispatched.count x := by
  rw [← List.count_append]; exact List.count_pos_iff.2 hx

/-- An action that makes no call and creates no RPC, that queues only ops whose lookup it
records, that keeps the RPCs' tablets, classes and ops, and the records of the placed ops,
keeps the invariant. -/
theorem RouteInvOf.quiet (h : s.RouteInvOf f (c ++ R)) (hc : ∀ x ∈ c, x.isFlushBuffer = false)
    (hk : ∀ x ∈ k, x.isFlushBuffer = false)
    (hq : ∀ x ∈ sd.opsQueue,
      x ∈ s.opsQueue ∨ Event.lookupFinished x (.ok (sd.heap x).tablet) ∈ sd.trace)
    (hr : ∀ rpc' ∈ sd.rpcs, ∃ rpc ∈ s.rpcs,
      rpc'.kind = rpc.kind ∧ rpc'.tablet = rpc.tablet ∧ rpc'.ops = rpc.ops)
    (hd : sd.dispatched = s.dispatched) (htr : ∃ evs, sd.trace = s.trace ++ evs)
    (hheap : ∀ x ∈ s.bufferedOf (c ++ R) ++ s.dispatched, sd.heap x = s.heap x) :
    sd.RouteInvOf f (k ++ R) := by
  obtain ⟨evs, htr⟩ := htr
  have hc' : localOf c = [] := localOf_eq_nil hc
  have hk' : localOf k = [] := localOf_eq_nil hk
  have old : ∀ x ∈ s.bufferedOf (c ++ R) ++ s.dispatched,
      Event.lookupFinished x (.ok (sd.heap x).tablet) ∈ sd.trace := fun x hx => by
    rw [htr, hheap x hx]; exact List.mem_append_left _ (h.looked_up x hx)
  have inR : ∀ {c'}, Frame.flushBuffer c' ∈ k ++ R → Frame.flushBuffer c' ∈ c ++ R := fun hm => by
    rcases List.mem_append.1 hm with hm | hm
    · simpa [Frame.isFlushBuffer] using hk _ hm
    · exact List.mem_append_right _ hm
  refine ⟨fun x hx => ?_, fun c' hc'' x hx => ?_, fun rpc' hrpc' x hx => ?_⟩
  · simp only [bufferedOf, List.mem_append, hd] at hx
    rcases hx with (hx | hx) | hx
    · exact (hq x hx).elim (fun hx => old x (by simp [bufferedOf, hx])) id
    · refine old x (List.mem_append_left _ (List.mem_append_right _ ?_))
      have hx : x ∈ localOf (k ++ R) := hx
      show x ∈ localOf (c ++ R)
      rwa [localOf_append, hc', List.nil_append, ← List.nil_append (localOf R), ← hk',
        ← localOf_append]
    · exact old x (List.mem_append_right _ hx)
  · have hm := inR hc''
    have hy : ∀ y ∈ c'.ops, sd.heap y = s.heap y := fun y hy => hheap y (mem_placed_of_call hm hy)
    obtain ⟨h1, h2⟩ := h.calls c' hm x hx
    exact ⟨by rw [hy x hx, h1], fun y hy' => by rw [hy x hx, hy y hy', h2 y hy']⟩
  · obtain ⟨rpc, hrpc, hkind, htab, hops⟩ := hr rpc' hrpc'
    rw [hops] at hx
    obtain ⟨h1, h2⟩ := h.rpcs rpc hrpc x hx
    rw [hheap x (mem_placed_of_rpc hrpc hx), hkind, htab]
    exact ⟨h1, h2⟩

theorem RouteInvOf.perm {fr fr' : List Frame} (h : s.RouteInvOf f fr) (hp : fr.Perm fr') :
    s.RouteInvOf f fr' where
  looked_up x hx := h.looked_up x (by
    simpa [bufferedOf, (hp.flatMap_right Frame.localOps).mem_iff] using hx)
  calls c hc := h.calls c (hp.mem_iff.2 hc)
  rpcs := h.rpcs

/-- The RPCs replaced in place by ones with the same tablet, class and ops. -/
theorem mem_set_route {r : ℕ} {rpc rpc' : AsyncRpc} (hr : s.rpcs[r]? = some rpc)
    (hkind : rpc'.kind = rpc.kind) (htab : rpc'.tablet = rpc.tablet) (hops : rpc'.ops = rpc.ops) :
    ∀ x ∈ s.rpcs.set r rpc', ∃ y ∈ s.rpcs,
      x.kind = y.kind ∧ x.tablet = y.tablet ∧ x.ops = y.ops := by
  intro x hx
  rcases List.mem_or_eq_of_mem_set hx with hx | rfl
  · exact ⟨x, hx, rfl, rfl, rfl⟩
  · obtain ⟨hlt, rfl⟩ := List.getElem?_eq_some_iff.1 hr
    exact ⟨_, List.getElem_mem hlt, hkind, htab, hops⟩

/-- A lookup the meta cache answers goes back to a thread. -/
theorem RouteInvOf.unregister {op : ℕ} (h : s.RouteInvOf f R) :
    { s with lookups := s.lookups.erase op }.RouteInvOf f (.addTail op :: R) :=
  ⟨h.looked_up, fun c hc => h.calls c (by simpa using hc), h.rpcs⟩

/-- `TabletLookupFinished`: a found tablet is stored in the op, which is queued with its lookup in
the trace; otherwise the op leaves every place. -/
theorem RouteInvOf.lookup {op : ℕ} {r : LookupResult}
    (hc : s.CensusOf (.addTail op :: R)) (h : s.RouteInvOf f (.addTail op :: R))
    (hl : LookupEffect f op r s sd k) : sd.RouteInvOf f (k ++ R) := by
  obtain ⟨-, hb0, hd0, -⟩ := (hc.census_at op).of_pending (by simp)
  have hheap : ∀ x ∈ s.bufferedOf (.addTail op :: R) ++ s.dispatched, sd.heap x = s.heap x :=
    fun x hx => hl.heap fun hxo => by have := placed_pos hx; subst hxo; omega
  have same : ∀ rpc' ∈ s.rpcs, ∃ rpc ∈ s.rpcs,
      rpc'.kind = rpc.kind ∧ rpc'.tablet = rpc.tablet ∧ rpc'.ops = rpc.ops :=
    fun rpc hr => ⟨rpc, hr, rfl, rfl, rfl⟩
  cases hl with
  | aborted =>
    exact h.quiet (c := [_]) (by simp [Frame.isFlushBuffer]) (by simp) (fun x hx => .inl hx) same
      rfl ⟨_, rfl⟩ hheap
  | found t _ hr =>
    subst hr
    refine h.quiet (c := [_]) (by simp [Frame.isFlushBuffer]) (by simp [Frame.isFlushBuffer])
      (fun x hx => ?_) same rfl ⟨_, rfl⟩ hheap
    rcases List.mem_append.1 hx with hx | hx
    · exact .inl hx
    · rw [List.mem_singleton.1 hx]; exact .inr (by simp)
  | failed =>
    exact h.quiet (c := [_]) (by simp [Frame.isFlushBuffer]) (by simp [Frame.isFlushBuffer])
      (fun x hx => .inl hx) same rfl ⟨_, rfl⟩ hheap

/-- The swap of `FlushBuffersIfReady`: its calls are the homogeneous ranges of the sorted
queue. -/
theorem RouteInvOf.swap (h : s.RouteInvOf f (.flushBuffersIfReady :: R)) (p : Option (List ℕ)) :
    { s with opsQueue := [], trace := s.trace ++ [Event.swap p s.opsQueue] }.RouteInvOf f
      ((planFlush f s.heap (s.forceConsistentRead || s.transaction) s.allowLocalCallsInCurrThread
        s.opsQueue).map Frame.flushBuffer ++ R) := by
  obtain ⟨-, hk2⟩ := flatMap_map_flushBuffer (planFlush f s.heap
    (s.forceConsistentRead || s.transaction) s.allowLocalCallsInCurrThread s.opsQueue)
  refine ⟨fun x hx => ?_, fun c hc x hx => ?_, h.rpcs⟩
  · refine List.mem_append_left _ (h.looked_up x ?_)
    simp only [bufferedOf, List.flatMap_append, hk2, planFlush_ops, List.mem_append,
      List.nil_append, (sortOps_perm _).mem_iff] at hx
    simp only [bufferedOf, List.flatMap_cons, Frame.localOps, List.nil_append, List.mem_append]
    tauto
  · rcases List.mem_append.1 hc with hc | hc
    · obtain ⟨c', hc', he⟩ := List.mem_map.1 hc
      cases he
      exact mem_planFlush_homogeneous hc' hx
    · exact h.calls c (List.mem_cons_of_mem _ hc) x hx

/-- `FlushBuffer`: the new RPC takes the call's tablet, and the class of its first op's group,
which is every op's group. -/
theorem RouteInvOf.flushBuffer {c : FlushBufferCall} (h : s.RouteInvOf f (.flushBuffer c :: R))
    {first : ℕ} (hfirst : first ∈ c.ops) (rpc : AsyncRpc)
    (hkind : rpc.kind = rpcKindOf (getOpGroup f (s.heap first))) (htab : rpc.tablet = c.tablet)
    (hops : rpc.ops = c.ops) : { s with rpcs := s.rpcs ++ [rpc] }.RouteInvOf f R := by
  have hcall := h.calls c (List.mem_cons_self _ _)
  refine ⟨fun x hx => h.looked_up x ?_, fun c' hc' => h.calls c'
    (List.mem_cons_of_mem _ hc'), fun rpc' hrpc x hx => ?_⟩
  · simp only [bufferedOf, dispatched, List.flatMap_append, List.flatMap_cons, List.flatMap_nil,
      List.append_nil, List.mem_append, hops] at hx ⊢
    simp only [Frame.localOps, List.mem_append]
    tauto
  · rcases List.mem_append.1 hrpc with hrpc | hrpc
    · exact h.rpcs rpc' hrpc x hx
    · rw [List.mem_singleton.1 hrpc, hops] at hx
      rw [List.mem_singleton.1 hrpc]
      obtain ⟨htab', hgrp⟩ := hcall x hx
      exact ⟨htab'.trans htab.symm, by rw [hkind, hgrp first hfirst]⟩

/-- Every action keeps the invariant. -/
theorem RouteInvOf.act {a : Action} (hc : s.CensusOf (a.consumes ++ R))
    (h : s.RouteInvOf f (a.consumes ++ R)) (ha : Effect f s a sd k) :
    sd.RouteInvOf f (k ++ R) := by
  have hheap : ∀ x ∈ s.bufferedOf (a.consumes ++ R) ++ s.dispatched, sd.heap x = s.heap x :=
    fun x hx => ha.heap_placed hc (placed_pos hx)
  have htr := ha.trace
  have same : ∀ rpc' ∈ s.rpcs, ∃ rpc ∈ s.rpcs,
      rpc'.kind = rpc.kind ∧ rpc'.tablet = rpc.tablet ∧ rpc'.ops = rpc.ops :=
    fun rpc hr => ⟨rpc, hr, rfl, rfl, rfl⟩
  cases ha <;> simp only [Action.consumes] at h hc
  case lookupFinished hop hl => exact h.unregister.lookup (hc.unregister hop) hl
  case addTailFound hl => exact h.lookup hc hl
  case swap => exact h.swap _
  case flushBuffer hops => exact h.flushBuffer (hops ▸ List.mem_cons_self _ _) _ rfl rfl rfl
  case abort ha | transactionFailed ha =>
    obtain ⟨ops, errors, ce, he, rfl, -, rfl⟩ := abort_ok ha
    exact h.quiet (by simp) (by split <;> simp [Frame.isFlushBuffer]) (fun x hx => .inl hx) same
      rfl htr hheap
  case rpcFinished hr _ _ | rpcRowError hr _ _ | rpcRowErrorSkipped hr _ _ |
      rpcRowErrorsDone hr _ | rpcNotified hr _ =>
    exact h.quiet (by simp) (by simp [Frame.isFlushBuffer]) (fun x hx => .inl hx)
      (mem_set_route hr rfl rfl rfl) (dispatched_setRpc hr rfl) htr hheap
  case rpcFailed hr _ =>
    rw [foldl_combineErrorUnlocked] at htr hheap ⊢
    exact h.quiet (by simp) (by simp) (fun x hx => .inl hx) (mem_set_route hr rfl rfl rfl)
      (dispatched_setRpc hr rfl) htr hheap
  case rpcRemoved hr _ hrm =>
    obtain ⟨ops, rfl, -⟩ := removeInFlightOpsAfterFlushing_ok hrm
    exact h.quiet (by simp) (by simp) (fun x hx => .inl hx) (mem_set_route hr rfl rfl rfl)
      (dispatched_setRpc hr rfl) htr hheap
  all_goals
    exact h.quiet (by simp [Frame.isFlushBuffer]) (by simp [Frame.isFlushBuffer])
      (fun x hx => .inl hx) same rfl htr hheap

/-- Every step keeps the invariant. -/
theorem RouteInv.step {s s' : Batcher} {l : Label} (hc : s.Census) (h : s.RouteInv f)
    (hs : s.step f l = some (.ok s')) : s'.RouteInv f := by
  obtain ⟨a, sd, k, R, ha, heq, hp, hp', -⟩ := step_ok hs
  have h' : sd.RouteInvOf f s'.frames := ((h.perm hp).act (hc.perm hp) ha).perm hp'.symm
  rw [RouteInv, heq]
  exact ⟨h'.1, h'.2, h'.3⟩

theorem routeInv_init (transaction forceConsistentRead allowLocalCallsInCurrThread : Bool) :
    (Batcher.init transaction forceConsistentRead allowLocalCallsInCurrThread).RouteInv f :=
  ⟨by simp [bufferedOf, dispatched, init, frames], by simp [frames, init], by simp [init]⟩

theorem routeInv_reachable {allowed : Batcher → Label → Prop} (h : Reachable f allowed s) :
    s.RouteInv f :=
  h.invariant routeInv_init fun hr hs _ hstep => hs.step (census_reachable hr) hstep

/-- **Where each op is sent.**  In every run, whatever the batch holds (tablets, op types,
`read_only` flags, consistency levels) and whatever `FLAGS_redis_allow_reads_from_followers`
says: no op is handed to two RPCs, or twice to one; and for every op of an RPC, the RPC goes to
the tablet the op's own lookup returned, and the RPC is a `WriteRpc` iff the op is not
`read_only`, a `CONSISTENT_PREFIX` `ReadRpc` iff the op's group is `kConsistentPrefixRead`, and a
leader (`STRONG`) `ReadRpc` iff its group is `kLeaderRead`. -/
theorem route_of_dispatched (h : Reachable f anyStep s) :
    (∀ x, s.dispatched.count x ≤ 1) ∧
    ∀ rpc ∈ s.rpcs, ∀ x ∈ rpc.ops,
      Event.lookupFinished x (.ok rpc.tablet) ∈ s.trace ∧
      (rpc.kind = .writeRpc ↔ (s.heap x).ybOp.readOnly = false) ∧
      (rpc.kind = .readRpc .consistentPrefix ↔ getOpGroup f (s.heap x) = .kConsistentPrefixRead) ∧
      (rpc.kind = .readRpc .strong ↔ getOpGroup f (s.heap x) = .kLeaderRead) := by
  have hc := census_reachable h
  have hr := routeInv_reachable (f := f) h
  refine ⟨fun x => ?_, fun rpc hrpc x hx => ?_⟩
  · rcases Nat.eq_zero_or_pos (s.dispatched.count x) with h0 | hpos
    · omega
    · have := (CensusOf.placed hc (x := x) (by omega)).1; omega
  · obtain ⟨htab, hkind⟩ := hr.rpcs rpc hrpc x hx
    rw [hkind, ← getOpGroup_eq_kWrite]
    exact ⟨htab ▸ hr.looked_up x (mem_placed_of_rpc hrpc hx), rpcKindOf_eq_iff _⟩

/-- A write on tablet 2, then a consistent-prefix read and a leader read on tablet 1: three RPCs,
a leader `ReadRpc` and a `CONSISTENT_PREFIX` one to tablet 1, and a `WriteRpc` to tablet 2. -/
theorem route_of_dispatched_mixed_batch :
    ∃ s : Batcher, Reachable ⟨false, false, 1⟩ anyStep s ∧
      s.rpcs.map (fun rpc => (rpc.kind, rpc.tablet, rpc.ops)) =
        [(.readRpc .strong, 1, [2]), (.readRpc .consistentPrefix, 1, [1]), (.writeRpc, 2, [0])] ∧
      (∀ x, s.dispatched.count x ≤ 1) ∧
      ∀ rpc ∈ s.rpcs, ∀ x ∈ rpc.ops,
        Event.lookupFinished x (.ok rpc.tablet) ∈ s.trace ∧
        (rpc.kind = .writeRpc ↔ (s.heap x).ybOp.readOnly = false) ∧
        (rpc.kind = .readRpc .consistentPrefix ↔
          getOpGroup ⟨false, false, 1⟩ (s.heap x) = .kConsistentPrefixRead) ∧
        (rpc.kind = .readRpc .strong ↔ getOpGroup ⟨false, false, 1⟩ (s.heap x) = .kLeaderRead) := by
  have hrun : (Batcher.init false false false).run ⟨false, false, 1⟩
      [.add ⟨.qlWrite, false, .strong, false, 2, .ok "k", false, none⟩,
        .add ⟨.qlRead, true, .consistentPrefix, false, 0, .ok "k", false, none⟩,
        .add ⟨.qlRead, true, .strong, false, 1, .ok "k", false, none⟩, .flushAsync 0,
        .run 0 false, .run 0 false, .run 0 false, .lookupFinished 1 (.ok 1), .run 1 false,
        .run 3 false, .run 3 false, .run 3 false] = some (.ok _) := rfl
  have hr := Reachable.run (.init false false false) (fun _ _ _ => trivial) hrun
  exact ⟨_, hr, rfl, route_of_dispatched hr⟩

end Batcher

end ClientBatcher
