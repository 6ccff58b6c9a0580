import ClientBatcher.Rpcs

/-!
# The RPCs of a batch do not depend on the interleaving

`FlushBuffersIfReady` may run many times, on the thread of `FlushAsync`, of any lookup's answer
and of any `TransactionReady`, and the lookups answer in any order; the sort and the scan run on
whatever `ops_queue_` holds when one of those calls swaps it out.  This file proves that the
outcome is the one a single sequential pass would give: once the batch has swapped the queue out,
the `FlushBuffer` calls it made and has still to make are the plan (`planFlush`: the sort by the
comparator of `FlushBuffersIfReady`, then its scan) of the ops whose lookup found a tablet, the
admitted ops the batcher marked `kBufferedToTabletServer` (`foundOps`).  So the RPCs of a batch,
their ranges, their tablets and their flags, are a function of the admitted ops and the tablets
their lookups returned, whatever the interleaving.

* `Effect.heap_swap` : what an action does to the ops' records and to the swap.
* `FoundInv` : an op marked `kBufferedToTabletServer` had its lookup answered with its tablet.
* `queue_perm_foundOps` : before the swap, `ops_queue_` holds exactly the ops whose lookup found a
  tablet.
* `flushCalls_eq_planFlush_foundOps` : **one plan**, in every run that has not aborted.

What this does not say: once `Abort` has run, the lookups that still answer find tablets for ops
that are never sent, and the result is not claimed there.
-/

namespace ClientBatcher

namespace Batcher

variable {f : Flags} {s sd : Batcher} {k : List Frame}

/-- The ops whose lookup found a tablet: the admitted ops the batcher marked
`kBufferedToTabletServer`, in order of admission. -/
def foundOps (s : Batcher) : List ℕ :=
  (List.range s.nextOpSequenceNumber).filter fun x => (s.heap x).state = .kBufferedToTabletServer

@[simp] theorem mem_foundOps {x : ℕ} :
    x ∈ s.foundOps ↔ x < s.nextOpSequenceNumber ∧ (s.heap x).state = .kBufferedToTabletServer := by
  simp [foundOps]

theorem foundOps_nodup (s : Batcher) : s.foundOps.Nodup :=
  (List.nodup_range _).filter _

/-- The plan of a list of ops with distinct sequence numbers depends only on which ops it holds:
the sort of `FlushBuffersIfReady` orders any two of them. -/
theorem planFlush_perm {heap : ℕ → InFlightOp} {l l' : List ℕ} (hp : l.Perm l') (hnd : l.Nodup)
    (hseq : ∀ a ∈ l, ∀ b ∈ l, (heap a).sequenceNumber = (heap b).sequenceNumber → a = b)
    (force allowLocal : Bool) :
    planFlush f heap force allowLocal l = planFlush f heap force allowLocal l' := by
  haveI : IsAntisymm ℕ fun a b => opLess f (heap a) (heap b) = true :=
    ⟨fun a b hab hba => by rw [opLess_iff] at hab hba; omega⟩
  have hsort : sortOps f heap l = sortOps f heap l' :=
    List.eq_of_perm_of_sorted (((sortOps_perm _).trans hp).trans (sortOps_perm _).symm)
      (sorted_sortOps hseq hnd)
      (sorted_sortOps (fun a ha b hb => hseq a (hp.mem_iff.2 ha) b (hp.mem_iff.2 hb))
        (hp.nodup_iff.1 hnd))
  unfold planFlush
  rw [hsort]

/-! ### What a step does to the records -/

theorem swapped_of_append {t : Batcher} {evs : List Event} (htr : sd.trace = t.trace ++ evs)
    (hevs : ∀ e ∈ evs, ∀ p taken, e ≠ .swap p taken) (hsw : sd.Swapped) : t.Swapped := by
  obtain ⟨p, taken, hm⟩ := hsw
  rw [htr] at hm
  rcases List.mem_append.1 hm with hm | hm
  · exact ⟨p, taken, hm⟩
  · exact absurd rfl (hevs _ hm p taken)

/-- **What an action does to the records of the ops and to the swap.**  It keeps the records
and the admissions, and either whether the batch has swapped or it is the swap of
`FlushBuffersIfReady`, which makes the calls of the plan of the queue; or it is `Add` in
`kGatheringOps`, which records no event and writes only a record in `kLookingUpTablet`; or it
answers a pending lookup, which records only that answer and changes only the record of its op,
and only to the tablet it answers. -/
theorem Effect.heap_swap {a : Action} (h : Effect f s a sd k) :
    (sd.heap = s.heap ∧ sd.nextOpSequenceNumber = s.nextOpSequenceNumber ∧
      ((sd.Swapped → s.Swapped) ∨
        k = (planFlush f s.heap (s.forceConsistentRead || s.transaction)
          s.allowLocalCallsInCurrThread s.opsQueue).map .flushBuffer)) ∨
    (s.state = .kGatheringOps ∧ sd.trace = s.trace ∧
      ∀ x, sd.heap x = s.heap x ∨ (sd.heap x).state = .kLookingUpTablet) ∨
    (∃ op ∈ s.pendingOf a.consumes, ∃ r, sd.trace = s.trace ++ [.lookupFinished op r] ∧
      ∀ x, sd.heap x = s.heap x ∨ (x = op ∧ r = .ok (sd.heap x).tablet)) := by
  have keep : ∀ evs : List Event, sd.heap = s.heap →
      sd.nextOpSequenceNumber = s.nextOpSequenceNumber → sd.trace = s.trace ++ evs →
      (∀ e ∈ evs, ∀ p taken, e ≠ .swap p taken) →
      sd.heap = s.heap ∧ sd.nextOpSequenceNumber = s.nextOpSequenceNumber ∧
        ((sd.Swapped → s.Swapped) ∨ k = (planFlush f s.heap (s.forceConsistentRead ||
          s.transaction) s.allowLocalCallsInCurrThread s.opsQueue).map .flushBuffer) :=
    fun _ h1 h2 htr hevs => ⟨h1, h2, .inl (swapped_of_append htr hevs)⟩
  have lookup : ∀ {t : Batcher} {op : ℕ} {r : LookupResult}, LookupEffect f op r t sd k →
      t.heap = s.heap → t.trace = s.trace → op ∈ s.pendingOf a.consumes →
      ∃ op ∈ s.pendingOf a.consumes, ∃ r, sd.trace = s.trace ++ [.lookupFinished op r] ∧
        ∀ x, sd.heap x = s.heap x ∨ (x = op ∧ r = .ok (sd.heap x).tablet) :=
    fun {t op r} hl hth htr hop => by
      refine ⟨op, hop, r, by rw [hl.frame.1, htr], fun x => ?_⟩
      by_cases hx : x = op
      · subst hx
        cases hl with
        | aborted => cases r <;> simp [hth]
        | found t _ hr _ _ => subst hr; simp
        | failed st _ hr _ => subst hr; simp [hth]
      · exact .inl (by rw [hl.heap hx, hth])
  cases h
  case add hg _ =>
    refine .inr (.inl ⟨hg, rfl, fun x => ?_⟩)
    by_cases hx : x = s.nextOpSequenceNumber
    · subst hx; exact .inr (by simp)
    · exact .inl (by simp [Function.update_apply, hx])
  case lookupFinished hop hl =>
    exact .inr (.inr (lookup hl rfl rfl (by simp [pendingOf, Action.consumes, hop])))
  case addTailFound hl =>
    exact .inr (.inr (lookup hl rfl rfl (by simp [pendingOf, Action.consumes])))
  case abort ha | transactionFailed ha =>
    obtain ⟨ops, errors, ce, he, rfl, -⟩ := abort_ok ha
    exact .inl (keep [] rfl rfl (List.append_nil _).symm (by simp))
  case rpcFailed =>
    rw [foldl_combineErrorUnlocked] at keep ⊢
    exact .inl (keep [] rfl rfl (List.append_nil _).symm (by simp))
  case rpcRemoved hrm =>
    obtain ⟨ops, rfl, -⟩ := removeInFlightOpsAfterFlushing_ok hrm
    exact .inl (keep [] rfl rfl (List.append_nil _).symm (by simp))
  case rpcNotified => exact .inl (keep _ rfl rfl rfl (by split <;> simp))
  case runCallbackTail | prepareDeferred => exact .inl (keep _ rfl rfl rfl (by simp))
  case swap => exact .inl ⟨rfl, rfl, .inr rfl⟩
  all_goals exact .inl (keep [] rfl rfl (List.append_nil _).symm (by simp))

/-! ### The ops whose lookup found a tablet -/

/-- An op marked `kBufferedToTabletServer` had its lookup answered with its tablet. -/
def FoundInv (s : Batcher) : Prop :=
  ∀ x, (s.heap x).state = .kBufferedToTabletServer →
    Event.lookupFinished x (.ok (s.heap x).tablet) ∈ s.trace

theorem FoundInv.step {s s' : Batcher} {l : Label} (h : s.FoundInv)
    (hs : s.step f l = some (.ok s')) : s'.FoundInv := by
  obtain ⟨a, sd, k, R, ha, heq, -, -, -⟩ := step_ok hs
  obtain ⟨evs, hevs⟩ := ha.trace
  have hheap : s'.heap = sd.heap := by rw [heq]
  have htr : s'.trace = sd.trace := by rw [heq]
  intro x hx
  rw [hheap] at hx ⊢
  rw [htr]
  have old : sd.heap x = s.heap x →
      Event.lookupFinished x (.ok (sd.heap x).tablet) ∈ sd.trace := fun he => by
    rw [hevs, he]
    exact List.mem_append_left _ (h x (he ▸ hx))
  rcases ha.heap_swap with ⟨he, -⟩ | ⟨-, -, he⟩ | ⟨op, -, r, htr', he⟩
  · exact old (congrFun he x)
  · exact (he x).elim old fun hl => absurd (hl ▸ hx) (by decide)
  · rcases he x with he | ⟨rfl, rfl⟩
    · exact old he
    · rw [htr']
      exact List.mem_append_right _ (List.mem_singleton_self _)

theorem foundInv_init (transaction forceConsistentRead allowLocalCallsInCurrThread : Bool) :
    (init transaction forceConsistentRead allowLocalCallsInCurrThread).FoundInv :=
  fun _ hx => nomatch hx

theorem foundInv_reachable {allowed : Batcher → Label → Prop} (h : Reachable f allowed s) :
    s.FoundInv :=
  h.invariant foundInv_init fun _ hs _ hstep => hs.step hstep

/-- Before the swap, `ops_queue_` holds exactly the ops whose lookup found a tablet. -/
theorem queue_perm_foundOps (hc : s.Census) (hw : s.SwapInv) (hf : s.FoundInv)
    (hns : ¬s.Swapped) (hna : s.state ≠ .kAborted) : s.opsQueue.Perm s.foundOps := by
  refine (List.perm_ext_iff_of_nodup hc.nodup_queue (foundOps_nodup s)).2 fun x => ?_
  rw [mem_foundOps]
  refine ⟨fun hx => ⟨hc.queued hx, by_contra fun hne => ?_⟩,
    fun hx => hw.queued hns hna x _ (hf x hx.2)⟩
  have h4 := (hc.census_at x).2.2.2.1 hne
  have := List.count_pos_iff.2 hx
  simp only [count_bufferedOf] at h4
  omega

/-! ### One plan -/

/-- The calls of a batch that has swapped its queue out are the plan of the ops whose lookup found
a tablet. -/
def PlanInv (f : Flags) (s : Batcher) : Prop :=
  s.state ≠ .kAborted → s.Swapped → s.flushCalls = planFlush f s.heap
    (s.forceConsistentRead || s.transaction) s.allowLocalCallsInCurrThread s.foundOps

/-- Once the batch has swapped, no step changes a record or admits an op. -/
theorem records_of_swapped {a : Action} {R : List Frame} (hw : s.SwapInv) (hsw : s.Swapped)
    (hp : s.frames.Perm (a.consumes ++ R)) (ha : Effect f s a sd k) :
    sd.heap = s.heap ∧ sd.nextOpSequenceNumber = s.nextOpSequenceNumber := by
  obtain ⟨-, hpend, hg, -⟩ := hw.after_swap hsw
  rcases ha.heap_swap with ⟨h1, h2, -⟩ | ⟨hg', -⟩ | ⟨op, hop, -⟩
  · exact ⟨h1, h2⟩
  · exact absurd hg' hg
  · have := mem_pendingOf_mono (fun x hx => hp.symm.subset (List.mem_append_left _ hx)) hop
    rw [hpend] at this
    cases this

theorem PlanInv.step {s s' : Batcher} {l : Label} (hc : s.Census) (hw : s.SwapInv)
    (ho : s.OrderInv f) (hca : s.CallsInv f) (hf : s.FoundInv) (h : s.PlanInv f)
    (hs : s.step f l = some (.ok s')) : s'.PlanInv f := by
  intro hna' hsw'
  have hna : s.state ≠ .kAborted := fun ha => by
    have hmv := step_moves hs
    rw [ha] at hmv
    exact hna' (BatcherState.Moves.of_aborted hmv)
  obtain ⟨a, sd, k, R, ha, heq, hp, hp', -⟩ := step_ok hs
  obtain ⟨hforce, htx, hallow, hcalls⟩ :=
    step_flushCalls hc hw ho (fun c hc' => (hca.bounded c hc').1) hs
  have hsd : s'.heap = sd.heap ∧ s'.nextOpSequenceNumber = sd.nextOpSequenceNumber ∧
      s'.trace = sd.trace := by rw [heq]; exact ⟨rfl, rfl, rfl⟩
  have hfound : sd.heap = s.heap → sd.nextOpSequenceNumber = s.nextOpSequenceNumber →
      s'.heap = s.heap ∧ s'.foundOps = s.foundOps := fun h1 h2 =>
    ⟨hsd.1.trans h1, by simp only [foundOps, hsd.1, hsd.2.1, h1, h2]⟩
  rw [hforce, htx, hallow]
  by_cases hsw : s.Swapped
  · obtain ⟨h1, h2⟩ := records_of_swapped hw hsw hp ha
    rw [(hfound h1 h2).1, (hfound h1 h2).2, ← h hna hsw]
    rcases hcalls with ⟨hcalls, -⟩ | ⟨h0, -, hcalls⟩
    · exact hcalls
    · rw [hcalls, (hw.after_swap hsw).1, h0]
      rfl
  have hsw'' : sd.Swapped := by unfold Swapped at hsw' ⊢; rwa [hsd.2.2] at hsw'
  have hq := queue_perm_foundOps hc hw hf hsw hna
  have hplan := planFlush_perm (f := f) hq hc.nodup_queue (fun a ha b hb hab => by
    rwa [ho.seq a (hc.queued ha), ho.seq b (hc.queued hb)] at hab)
    (s.forceConsistentRead || s.transaction) s.allowLocalCallsInCurrThread
  rcases ha.heap_swap with ⟨h1, h2, hback | hk⟩ | ⟨-, htr, -⟩ | ⟨op, -, r, htr, -⟩
  · exact absurd (hback hsw'') hsw
  · rw [(hfound h1 h2).1, (hfound h1 h2).2, ← hplan]
    rcases hcalls with ⟨hcalls, -⟩ | ⟨-, -, hcalls⟩
    · -- a swap of an empty queue: no call before it, none after it
      obtain ⟨hr0, hfb⟩ := hw.before_swap hsw
      have hnil : s'.flushCalls = [] := by
        rw [hcalls]; simp [flushCalls, hr0, callsOf_eq_nil hfb]
      rw [hnil, ← callsOf_map_flushBuffer (planFlush _ _ _ _ _), ← hk]
      refine (List.eq_nil_iff_forall_not_mem.2 fun c hc' => ?_).symm
      have : c ∈ s'.flushCalls := List.mem_append_right _ (List.mem_flatMap.2
        (let ⟨fr, hfr, hc''⟩ := List.mem_flatMap.1 hc'
        ⟨fr, hp'.symm.subset (List.mem_append_left _ hfr), hc''⟩))
      rw [hnil] at this
      cases this
    · exact hcalls
  · exact absurd (swapped_of_append (by rw [htr, List.append_nil] : sd.trace = s.trace ++ [])
      (by simp) hsw'') hsw
  · exact absurd (swapped_of_append htr (by simp) hsw'') hsw

theorem planInv_reachable {allowed : Batcher → Label → Prop} (hpos : 0 < f.maxSidecarSlices)
    (h : Reachable f allowed s) : s.PlanInv f :=
  h.invariant (fun _ _ _ _ ⟨_, _, hm⟩ => by simp [init] at hm) fun hr hs _ hstep =>
    hs.step (census_reachable hr) (swapInv_reachable hr) (orderInv_reachable hr)
      (callsInv_reachable hpos hr) (foundInv_reachable hr) hstep

/-- **One plan.**  With `kMaxSidecarSlices ≥ 1`, in every run that has not aborted, whatever the
order of the `Add` calls, of the lookups' answers and of the `FlushBuffersIfReady` triggers: once
`FlushBuffersIfReady` has swapped `ops_queue_` out, the `FlushBuffer` calls of the batch, those
made (read back from its RPCs, in order of creation) and those still to be made, are exactly the
plan (the sort by the comparator of `FlushBuffersIfReady`, then its scan) of the ops whose lookup
found a tablet, with the flags of the batch.  The RPCs of a batch depend on the admitted ops and
the tablets their lookups returned, not on the interleaving. -/
theorem flushCalls_eq_planFlush_foundOps {allowed : Batcher → Label → Prop}
    (hpos : 0 < f.maxSidecarSlices) (h : Reachable f allowed s) (hna : s.state ≠ .kAborted)
    (hsw : s.Swapped) :
    s.flushCalls = planFlush f s.heap (s.forceConsistentRead || s.transaction)
      s.allowLocalCallsInCurrThread s.foundOps :=
  planInv_reachable hpos h hna hsw

/-- Two ops whose lookups answer in order of admission, for tablets in decreasing order: once the
first RPC is sent and the second call is pending, the calls are the plan, sorted by tablet. -/
theorem flushCalls_eq_planFlush_foundOps_two_tablets :
    ∃ s : Batcher, 0 < (⟨false, false, 1⟩ : Flags).maxSidecarSlices ∧
      Reachable ⟨false, false, 1⟩ anyStep s ∧ s.state ≠ .kAborted ∧ s.Swapped ∧
      s.flushCalls = planFlush ⟨false, false, 1⟩ s.heap (s.forceConsistentRead || s.transaction)
        s.allowLocalCallsInCurrThread s.foundOps := by
  have hrun : (Batcher.init false false false).run ⟨false, false, 1⟩
      [.add ⟨.qlWrite, false, .strong, false, 2, .ok "k", false, none⟩,
        .add ⟨.qlWrite, false, .strong, false, 1, .ok "k", false, none⟩, .run 0 false,
        .run 0 false, .flushAsync 0, .run 0 false, .run 0 false, .run 0 false,
        .run 0 false] = some (.ok _) := rfl
  have hr := Reachable.run (.init false false false) (fun _ _ _ => trivial) hrun
  exact ⟨_, by decide, hr, by decide, ⟨none, [0, 1], by decide⟩,
    flushCalls_eq_planFlush_foundOps (by decide) hr (by decide) ⟨none, [0, 1], by decide⟩⟩

end Batcher

end ClientBatcher
