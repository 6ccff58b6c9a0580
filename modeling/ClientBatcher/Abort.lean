import ClientBatcher.Quiescence

/-!
# Abort

`Abort` sets `kAborted` and fails every op of `ops_` in `kBufferedToTabletServer`: the queued
ops, the ops of the local lists of `FlushBuffersIfReady`, and the ops of the RPCs in flight.
It stops none of the code under way, and its unlocked tail calls `RunCallback` if it saw
`flush_callback_` set.

* `abort_strands_rpcs` : after `Abort`, no op of any RPC is in `ops_`, and the completion of an
  RPC that was in flight fails a CHECK: `ProcessRpcStatus`'s `CHECK_EQ(state_, kFlushing)` if
  it was not answered yet, `RemoveInFlightOpsAfterFlushing`'s `CHECK_EQ(1, ops_.erase(op))` when
  it gets there.  `abort_during_flush` is a run that ends so.
* `callback_at_most_once` : in a run without `Abort` the flush callback runs at most once:
  before `Abort`, `flush_callback_` holds it while a frame will call it, and only one frame will.
* `late_abort_empty_callback` : but `Abort` between the critical section of
  `CheckForFinishedFlush` and its `RunCallback` still finds `flush_callback_` set, and calls
  `RunCallback` too.  `RunCallback` moves the callback out with no lock held, so the two calls
  race: the second to move it calls the moved-from callback, or both read it before either
  empties it, and both run it.
-/

namespace ClientBatcher

namespace Batcher

variable {f : Flags} {s sd : Batcher} {k : List Frame}

/-! ### RPCs in flight at `Abort` -/

theorem removeInFlightOpsAfterFlushing_of_not_mem {x : ℕ} (rest : List ℕ) (hx : x ∉ s.ops) :
    removeInFlightOpsAfterFlushing (x :: rest) s = .error .removeNotInFlight := by
  simp [removeInFlightOpsAfterFlushing, hx]

/-- Once aborted, a batcher holds in `ops_` only ops whose lookup is pending; so no op of an RPC
is there, and the completion of an RPC fails its first CHECK: `ProcessRpcStatus`'s if the RPC
was not answered yet, else that of `RemoveInFlightOpsAfterFlushing`. -/
theorem abort_strands_rpcs (h : Reachable f anyStep s) (ha : s.state = .kAborted) {r : ℕ}
    {rpc : AsyncRpc} (hr : s.rpcs[r]? = some rpc) :
    (∀ x ∈ rpc.ops, x ∉ s.ops) ∧
    (rpc.phase = .sent → ∀ st errs,
      s.step f (.rpcFinished r st errs) = some (.error .rpcNotFlushing)) ∧
    (rpc.phase = .removing → s.step f (.rpcStep r) = some (.error .removeNotInFlight)) := by
  have hc := census_reachable h
  have hrpc := List.getElem?_mem hr
  have hout : ∀ x ∈ rpc.ops, x ∉ s.ops := fun x hx hxo => by
    have hpl : x ∈ s.bufferedOf s.frames ++ s.dispatched := mem_placed_of_rpc hrpc hx
    have hp := List.count_eq_zero.2 (CensusOf.placed hc (placed_pos hpl)).2.1
    have := (hc.census_at x).2.2.2.2.2 ha
    have := List.count_pos_iff.2 hxo
    omega
  refine ⟨hout, fun hp st errs => ?_, fun hp => ?_⟩
  · simp [step, enter, hr, hp, processRpcStatus, ha, Except.map]
  · obtain ⟨x, rest, hops⟩ :=
      List.exists_cons_of_ne_nil ((outcome_reachable h).rpcs_ok rpc hrpc).nonempty
    have := removeInFlightOpsAfterFlushing_of_not_mem rest (hout x (by simp [hops]))
    simp [step, enter, hr, rpcStep, hp, hops, this, Except.map]

/-- The op of the runs below: a QL write whose tablet the caller already resolved. -/
def resolvedWrite : YBOperation :=
  ⟨.qlWrite, false, .strong, false, 7, .ok "k", false, none⟩

/-- `Abort` while the RPC of a flush is in flight: its response reaches `ProcessRpcStatus`,
whose CHECK fails. -/
theorem abort_during_flush :
    (Batcher.init false false false).run ⟨false, false, 1⟩
      [.add resolvedWrite, .flushAsync 0, .run 0 false, .run 1 false, .run 1 false,
        .abort ⟨.kAborted, "abort"⟩, .rpcFinished 0 Status.OK []] =
      some (.error .rpcNotFlushing) := by
  have hrun : (Batcher.init false false false).run ⟨false, false, 1⟩
      [.add resolvedWrite, .flushAsync 0, .run 0 false, .run 1 false, .run 1 false,
        .abort ⟨.kAborted, "abort"⟩] = some (.ok _) := rfl
  exact (run_append hrun _).trans (run_singleton_error ((abort_strands_rpcs
    (Reachable.run (.init false false false) (fun _ _ _ => trivial) hrun) rfl rfl).2.1 rfl _ _))

/-! ### The flush callback -/

/-- The flush callback and the frames that will call it, before `Abort`, for the batcher's fields
`s` and the frames `fr` of its threads: while the batch flushes `flush_callback_` holds the
callback; a frame that will call it exists only while it does, and only one; so the move of
`RunCallback` finds it. -/
structure CallbackOf (s : Batcher) (fr : List Frame) : Prop where
  flushing : s.state = .kFlushing → s.flushCallback = true
  frames : fr.countP Frame.isCallback ≤ if s.flushCallback then 1 else 0
  taken : ∀ st, Frame.runCallbackTail st false ∉ fr

theorem CallbackOf.perm {fr fr' : List Frame} (h : s.CallbackOf fr) (hp : fr.Perm fr') :
    s.CallbackOf fr' :=
  ⟨h.flushing, hp.countP_eq _ ▸ h.frames, fun st hm => h.taken st (hp.mem_iff.2 hm)⟩

theorem CallbackOf.congr {fr : List Frame} (h : s.CallbackOf fr) (h1 : sd.state = s.state)
    (h2 : sd.flushCallback = s.flushCallback) : sd.CallbackOf fr :=
  ⟨fun hf => h2 ▸ h.flushing (h1 ▸ hf), h2 ▸ h.frames, h.taken⟩

/-- A frame that will call the callback exists only while `flush_callback_` holds it. -/
theorem CallbackOf.flushCallback {fr : List Frame} (h : s.CallbackOf fr) {c : Frame}
    (hc : c ∈ fr) (hcb : c.isCallback = true) : s.flushCallback = true := by
  by_contra hf
  have h0 := h.frames
  rw [if_neg hf] at h0
  exact absurd (List.countP_pos_iff.2 ⟨c, hc, hcb⟩) (by omega)

/-- An action that runs no callback frame and starts none, and leaves `flush_callback_` and
`state_` alone. -/
theorem CallbackOf.quiet (h : s.CallbackOf (c ++ R)) (hc : ∀ x ∈ c, x.isCallback = false)
    (hk : ∀ x ∈ k, x.isCallback = false) (hfc : sd.flushCallback = s.flushCallback)
    (hst : sd.state = s.state) : sd.CallbackOf (k ++ R) where
  flushing h1 := hfc ▸ h.flushing (hst ▸ h1)
  frames := by
    have h0 := h.frames
    rw [List.countP_append, List.countP_eq_zero.2 fun x hx => by simp [hc x hx]] at h0
    rwa [List.countP_append, List.countP_eq_zero.2 fun x hx => by simp [hk x hx], hfc]
  taken st hm := by
    rcases List.mem_append.1 hm with hm | hm
    · simpa [Frame.isCallback] using hk _ hm
    · exact h.taken st (List.mem_append_right _ hm)

/-- A piece of the callback's path that hands it on to the next. -/
theorem CallbackOf.pass {c c' : Frame} (h : s.CallbackOf (c :: R)) (hc : c.isCallback = true)
    (hc' : c'.isCallback = true) (ht : ∀ st, c' ≠ .runCallbackTail st false) :
    s.CallbackOf ([c'] ++ R) where
  flushing := h.flushing
  frames := by
    have h0 := h.frames
    simp only [List.countP_cons, List.singleton_append, hc, hc'] at h0 ⊢
    exact h0
  taken st hm := by
    rcases List.mem_cons.1 hm with hm | hm
    · exact ht st hm.symm
    · exact h.taken st (.tail _ hm)

/-- Before the flush is over, no frame will call the callback. -/
theorem OutcomeOf.countP_isCallback {fr : List Frame} (ho : s.OutcomeOf fr)
    (hst : s.state = .kGatheringOps ∨ s.state = .kFlushing) :
    fr.countP Frame.isCallback = 0 :=
  List.countP_eq_zero.2 fun x hx hcb => by
    rcases ho.callback_frames x hx (by simpa using hcb) with h | h <;>
      rcases hst with h' | h' <;> rw [h'] at h <;> cases h

/-- **What an action does to the flush callback.**  Only `FlushAsync` stores it; only
`CheckForFinishedFlush` setting `kFlushed` starts a frame that will call it; the move of
`RunCallback` finds it, since that frame is the only one; its runnable empties
`flush_callback_`. -/
theorem CallbackOf.act {a : Action} (ho : s.OutcomeOf (a.consumes ++ R))
    (h : s.CallbackOf (a.consumes ++ R)) (ha : Effect f s a sd k) (hna : sd.state ≠ .kAborted) :
    sd.CallbackOf (k ++ R) := by
  have none : ∀ x ∈ ([] : List Frame), x.isCallback = false := fun _ => nofun
  cases ha <;> simp only [Action.consumes] at h ho
  case abort ha | transactionFailed ha => exact absurd (abort_state ha) hna
  case lookupFinished hl | addTailFound hl =>
    cases hl <;> exact h.quiet (by simp [Frame.isCallback]) (by simp [Frame.isCallback]) rfl rfl
  case flushAsync hst =>
    have hR := ho.countP_isCallback (.inl hst)
    refine ⟨fun _ => rfl, ?_, fun st hm => h.taken st ((List.mem_append.1 hm).resolve_left nofun)⟩
    simp only [List.countP_append, List.countP_nil, Nat.zero_add] at hR ⊢
    simp [hR, Frame.isCallback]
  case checkFinished hst _ =>
    have hR := ho.countP_isCallback (.inr hst)
    refine ⟨nofun, ?_, fun st hm => h.taken st (.tail _ ((List.mem_cons.1 hm).resolve_left nofun))⟩
    simp only [List.countP_append, List.countP_cons, List.countP_nil] at hR ⊢
    simp only [Frame.isCallback, if_false, Bool.false_eq_true] at hR
    simp only [Frame.isCallback, h.flushing hst, if_true]
    omega
  case flushFinished => exact h.pass rfl rfl fun _ => nofun
  case runCallback =>
    rw [h.flushCallback (List.mem_cons_self _ _) rfl]
    exact h.pass rfl rfl fun _ => by simp
  case runCallbackTail =>
    have hfc := h.flushCallback (List.mem_cons_self _ _) rfl
    have hst := ho.callback_frames _ (List.mem_cons_self _ _) rfl
    refine ⟨fun h' => absurd h' (by rcases hst with h'' | h'' <;> simp [h'']), ?_,
      fun st' hm => h.taken st' (.tail _ hm)⟩
    have h0 := h.frames
    simp only [List.singleton_append, List.countP_cons, hfc, Frame.isCallback, if_true] at h0
    simp only [List.nil_append, Bool.false_eq_true, if_false]
    omega
  case rpcFailed =>
    rw [foldl_combineErrorUnlocked]
    exact h.quiet none none rfl rfl
  case rpcRemoved hrm =>
    obtain ⟨ops, rfl, -⟩ := removeInFlightOpsAfterFlushing_ok hrm
    exact h.quiet none none rfl rfl
  all_goals exact h.quiet (by simp [Frame.isCallback]) (by simp [Frame.isCallback]) rfl rfl

theorem CallbackOf.step {s s' : Batcher} {l : Label} (ho : s.Outcome)
    (h : s.state ≠ .kAborted → s.CallbackOf s.frames) (hs : s.step f l = some (.ok s'))
    (hna' : s'.state ≠ .kAborted) : s'.CallbackOf s'.frames := by
  obtain ⟨a, sd, k, R, ha, heq, hp, hp', -⟩ := step_ok hs
  have hna : s.state ≠ .kAborted := fun ha' =>
    hna' (BatcherState.Moves.of_aborted (ha' ▸ step_moves hs))
  have h' := ((h hna).perm hp).act (ho.perm hp) ha (by rw [heq] at hna'; exact hna')
  rw [heq]
  exact (h'.perm hp'.symm).congr rfl rfl

/-- Before `Abort`, every run keeps `CallbackOf`. -/
theorem callbackOf_reachable {allowed : Batcher → Label → Prop} (h : Reachable f allowed s)
    (hna : s.state ≠ .kAborted) : s.CallbackOf s.frames :=
  h.invariant (P := fun t => t.state ≠ .kAborted → t.CallbackOf t.frames)
    (fun _ _ _ _ => ⟨by simp [init], by simp [init, frames], by simp [init, frames]⟩)
    (fun hr hs _ hstep => CallbackOf.step (outcome_reachable hr) hs hstep) hna

/-- The flush callbacks run so far, and the one `flush_callback_` still holds. -/
def callbacksOwed (s : Batcher) : ℕ :=
  s.trace.countP Event.isCallback + if s.flushCallback then 1 else 0

/-- Only `FlushAsync` stores a callback, from `kGatheringOps`; the runnable of `RunCallback` runs
one, and empties `flush_callback_`; no other action touches either. -/
theorem Effect.callbacksOwed {a : Action} (ha : Effect f s a sd k) :
    (s.state = .kGatheringOps ∧ sd.state = .kFlushing ∧
      sd.callbacksOwed ≤ s.callbacksOwed + 1) ∨
    (∃ st, a.consumes = [.runCallbackTail st true] ∧
      sd.callbacksOwed = s.trace.countP Event.isCallback + 1) ∨
    sd.callbacksOwed = s.callbacksOwed := by
  cases ha
  case flushAsync hst =>
    exact .inl ⟨hst, rfl, by simp only [callbacksOwed, if_true]; omega⟩
  case runCallbackTail st _ =>
    exact .inr (.inl ⟨st, rfl, by simp [callbacksOwed, Event.isCallback]⟩)
  case abort ha | transactionFailed ha =>
    obtain ⟨_, _, _, _, rfl, -⟩ := abort_ok ha
    exact .inr (.inr rfl)
  case lookupFinished hl | addTailFound hl =>
    cases hl <;> exact .inr (.inr (by simp [callbacksOwed, Event.isCallback]))
  case rpcFailed => exact .inr (.inr (by simp [callbacksOwed, foldl_combineErrorUnlocked]))
  case rpcRemoved hrm =>
    obtain ⟨ops, rfl, -⟩ := removeInFlightOpsAfterFlushing_ok hrm
    exact .inr (.inr rfl)
  case rpcNotified =>
    exact .inr (.inr (by cases s.transaction <;> simp [callbacksOwed, Event.isCallback]))
  case prepareDeferred | swap =>
    exact .inr (.inr (by simp [callbacksOwed, Event.isCallback]))
  all_goals exact .inr (.inr rfl)

/-- A step to `kGatheringOps` starts from it. -/
theorem Effect.gathering {a : Action} (ha : Effect f s a sd k)
    (hg : sd.state = .kGatheringOps) : s.state = .kGatheringOps := by
  rcases ha.state with h | ⟨-, -, h⟩ | ⟨-, -, h⟩ | ⟨-, h⟩ <;> rw [hg] at h
  · exact h.symm
  all_goals cases h

/-- The invariant of the flush callback before `Abort`: none before `FlushAsync`, at most one
in all. -/
def CallbackInv (s : Batcher) : Prop :=
  (s.state = .kGatheringOps → s.callbacksOwed = 0) ∧ s.callbacksOwed ≤ 1

theorem CallbackInv.step {s s' : Batcher} {l : Label} (hcb : s.CallbackOf s.frames)
    (h : s.CallbackInv) (hs : s.step f l = some (.ok s')) : s'.CallbackInv := by
  obtain ⟨a, sd, k, R, ha, heq, hp, -, -⟩ := step_ok hs
  have hown : s'.callbacksOwed = sd.callbacksOwed := by rw [heq]; rfl
  have hst : s'.state = sd.state := by rw [heq]
  have hg : s'.state = .kGatheringOps → s.state = .kGatheringOps := fun hg =>
    ha.gathering (hst ▸ hg)
  rcases ha.callbacksOwed with ⟨hg', hfl, hle⟩ | ⟨st, hc, htail⟩ | hsame
  · have := h.1 hg'
    exact ⟨fun hg'' => (by rw [hst, hfl] at hg''; cases hg''), by omega⟩
  · -- the runnable runs the callback that `flush_callback_` held
    have hfc : s.flushCallback = true :=
      hcb.flushCallback (c := .runCallbackTail st true) (hp.symm.subset (by simp [hc])) rfl
    have hsame : sd.callbacksOwed = s.callbacksOwed := by
      rw [htail, callbacksOwed, hfc, if_pos rfl]
    exact ⟨fun hg' => by rw [hown, hsame]; exact h.1 (hg hg'), by rw [hown, hsame]; exact h.2⟩
  · exact ⟨fun hg' => by rw [hown, hsame]; exact h.1 (hg hg'), by rw [hown, hsame]; exact h.2⟩

/-- **Without `Abort`, the flush callback runs at most once.**  In every run without `Abort`,
whatever the order of the lookups' answers, of the RPCs' completions and of the checks for the
end of the flush: `FlushAsync` stores the callback once, from `kGatheringOps`; only the frame
that `CheckForFinishedFlush` starts when it sets `kFlushed` calls `RunCallback`, and the move of
that `RunCallback` finds it. -/
theorem callback_at_most_once (h : Reachable f noAbort s) :
    s.trace.countP Event.isCallback ≤ 1 := by
  have : s.CallbackInv :=
    h.invariant (P := CallbackInv) (fun _ _ _ => ⟨fun _ => rfl, by simp [callbacksOwed, init]⟩)
      fun hr hs _ hstep => hs.step (callbackOf_reachable hr (state_ne_aborted hr)) hstep
  have := this.2
  unfold callbacksOwed at this
  omega

/-- Two writes: one sent in an RPC that completes, one whose lookup fails.  Three threads check
for the end of the flush; the callback runs once. -/
theorem callback_at_most_once_failed_lookup :
    ∃ s : Batcher, Reachable ⟨false, false, 1⟩ noAbort s ∧ s.state = .kFlushed ∧
      s.frames.count .checkForFinishedFlush = 2 ∧
      s.trace.countP Event.isCallback = 1 ∧ s.trace.countP Event.isCallback ≤ 1 := by
  have hrun : (Batcher.init false false false).run ⟨false, false, 1⟩
      [.add ⟨.qlWrite, false, .strong, false, 7, .ok "k", false, none⟩,
        .add ⟨.qlWrite, false, .strong, false, 0, .ok "k", false, none⟩, .flushAsync 0,
        .run 0 false, .run 0 false, .lookupFinished 1 (.error ⟨.kIOError, "a"⟩), .run 1 false,
        .run 2 false, .rpcFinished 0 Status.OK [], .rpcStep 0, .rpcStep 0, .rpcStep 0,
        .run 0 false, .run 2 false, .run 2 false, .run 2 false] =
        some (.ok _) := rfl
  have hr : Reachable ⟨false, false, 1⟩ noAbort _ :=
    Reachable.run (.init false false false) (by simp [noAbort, Label.aborts]) hrun
  exact ⟨_, hr, rfl, rfl, rfl, callback_at_most_once hr⟩

/-- `Abort` after the critical section of `CheckForFinishedFlush` set `kFlushed`, but before the
move of its `RunCallback`: `flush_callback_` is still set, so `Abort` calls `RunCallback` too.
If `Abort`'s call moves the callback out and runs it first, the `RunCallback` of
`CheckForFinishedFlush` then calls the moved-from callback; if both moves read
`flush_callback_` before either empties it, both run the callback. -/
theorem late_abort_empty_callback :
    (Batcher.init false false false).run ⟨false, false, 1⟩
      [.flushAsync 0, .run 0 false, .abort ⟨.kAborted, "abort"⟩, .run 1 false, .run 1 false,
        .run 0 false, .run 0 false, .run 0 false] =
      some (.error .emptyFlushCallback) ∧
    ∃ s : Batcher, (Batcher.init false false false).run ⟨false, false, 1⟩
      [.flushAsync 0, .run 0 false, .run 0 false, .abort ⟨.kAborted, "abort"⟩, .run 0 false,
        .run 0 false, .run 0 false, .run 0 false] = some (.ok s) ∧
      s.trace.countP Event.isCallback = 2 :=
  ⟨rfl, _, rfl, rfl⟩

end Batcher

end ClientBatcher
