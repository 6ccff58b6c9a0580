import ClientBatcher.Rpcs
import ClientBatcher.Abort

/-!
# The CHECKs of the batcher

The batcher guards its own bookkeeping with `CHECK`s: `ops_` must hold the op it inserts or
erases, an op whose lookup answers must be looking up its tablet, a range passed to
`FlushBuffer` must be non-empty, an RPC's response must come while the batch flushes, and
`RunCallback` must find a callback in `flush_callback_`.  Until `Abort` none of them fails: a
step fails only when the caller breaks the contract of `Batcher` (`Add` or `FlushAsync` after
`FlushAsync`, a negative timeout) or the meta cache answers a lookup with no tablet.  After
`Abort` exactly three more can fail, all in code that was already under way: the response of an
RPC still in flight, the removal of its ops, which `Abort` already failed, and a `RunCallback`
whose callback `Abort` already ran (`abort_strands_rpcs`, `late_abort_empty_callback`).

* `step_error` : a failed step is a frame or a call entering the batcher that failed.
* `check_failures` : in every run, the CHECKs a step can fail, and when.
-/

namespace ClientBatcher

namespace Batcher

variable {f : Flags} {s sd : Batcher} {k : List Frame}

/-! ### Where a CHECK fails -/

/-- A step that fails: the frame a thread ran, or the call entering the batcher. -/
theorem step_error {l : Label} {e : CheckFailure} (h : s.step f l = some (.error e)) :
    (∃ i p fr, l = .run i p ∧ fr ∈ s.frames ∧ s.exec f p fr = .error e) ∨
    ((∀ i p, l ≠ .run i p) ∧ s.enter f l = some (.error e)) := by
  cases l
  case run i p =>
    simp only [step] at h
    split at h
    · rename_i fr rest others hpick
      cases hx : s.exec f p fr with
      | error e' =>
        simp only [hx, Except.map, Option.some.injEq, Except.error.injEq] at h
        subst h
        exact .inl ⟨i, p, fr, rfl, List.mem_flatten.2 ⟨fr :: rest,
          (pick_perm hpick).symm.subset (List.mem_cons_self _ _), List.mem_cons_self _ _⟩, hx⟩
      | ok q => simp [hx, Except.map] at h
    · cases h
  all_goals
    refine .inr ⟨fun _ _ => by simp, ?_⟩
    simp only [step, Option.map_eq_some'] at h
    obtain ⟨x, hx, hmap⟩ := h
    cases x with
    | ok q => cases hmap
    | error e' => cases hmap; exact hx

/-! ### The functions and their CHECKs -/

theorem removeInFlightOpsAfterFlushing_ne_error : ∀ {l : List ℕ} {s : Batcher}, l.Nodup →
    (∀ x ∈ l, x ∈ s.ops) → ∀ e, removeInFlightOpsAfterFlushing l s ≠ .error e
  | [], _, _, _, e => by simp [removeInFlightOpsAfterFlushing]
  | op :: rest, s, hnd, hsub, e => by
    obtain ⟨hop, hnd⟩ := List.nodup_cons.1 hnd
    rw [removeInFlightOpsAfterFlushing, if_pos (hsub op (List.mem_cons_self _ _))]
    exact removeInFlightOpsAfterFlushing_ne_error hnd (fun x hx =>
      (List.mem_erase_of_ne (ne_of_mem_of_not_mem hx hop)).2 (hsub x (List.mem_cons_of_mem _ hx))) e

theorem removeInFlightOpsAfterFlushing_error : ∀ {l : List ℕ} {s : Batcher} {e : CheckFailure},
    removeInFlightOpsAfterFlushing l s = .error e → e = .removeNotInFlight
  | [], _, _, h => by cases h
  | op :: rest, s, e, h => by
    unfold removeInFlightOpsAfterFlushing at h
    split_ifs at h
    · exact removeInFlightOpsAfterFlushing_error h
    · exact (Except.error.inj h).symm

theorem markAllFailed_ne_error {st : Status} : ∀ {l : List ℕ} {s : Batcher}, l.Nodup →
    (∀ x ∈ l, x ∈ s.ops) → ∀ e, markAllFailed f st l s ≠ .error e
  | [], _, _, _, e => by simp [markAllFailed]
  | op :: rest, s, hnd, hsub, e => by
    obtain ⟨hop, hnd⟩ := List.nodup_cons.1 hnd
    have hm : markInFlightOpFailedUnlocked f op st s =
        .ok (combineErrorUnlocked f op st { s with ops := s.ops.erase op }) :=
      markInFlightOpFailedUnlocked_ok.2 ⟨hsub op (List.mem_cons_self _ _), rfl⟩
    simp only [markAllFailed, hm]
    exact markAllFailed_ne_error hnd (fun x hx =>
      (List.mem_erase_of_ne (ne_of_mem_of_not_mem hx hop)).2 (hsub x (List.mem_cons_of_mem _ hx))) e

/-- `Abort` fails no CHECK while `ops_` holds each op once. -/
theorem abort_ne_error (hnd : s.ops.Nodup) (st : Status) (e : CheckFailure) :
    s.abort f st ≠ .error e := by
  simp only [abort]
  cases hm : markAllFailed f st (s.ops.filter fun op =>
      (s.heap op).state = .kBufferedToTabletServer) { s with state := .kAborted } with
  | error e' => exact absurd hm (markAllFailed_ne_error (s := { s with state := .kAborted })
      (hnd.filter _) (fun x hx => (List.mem_filter.1 hx).1) e')
  | ok s' => simp [Except.map]

/-- The answer to a lookup of an op in `ops_` that is looking up its tablet fails no CHECK,
unless it is a null tablet before `Abort`. -/
theorem tabletLookupFinished_ne_error {op : ℕ} {r : LookupResult}
    (hlook : (s.heap op).state = .kLookingUpTablet) (hops : op ∈ s.ops)
    (hr : r = .ok 0 → s.state = .kAborted) (e : CheckFailure) :
    s.tabletLookupFinished f op r ≠ .error e := by
  unfold tabletLookupFinished
  simp only [recordLookup_state, recordLookup_ops, recordLookup_heap_state, hlook, ne_eq,
    not_true_eq_false, if_false]
  split_ifs with ha
  · simp [markInFlightOpFailedUnlocked, hops, Except.map]
  · cases r with
    | ok t =>
      have ht : t ≠ 0 := fun h0 => ha (hr (by rw [h0]))
      simp [ht]
    | error st => simp [markInFlightOpFailedUnlocked, hops, Except.map]

/-- The completion of an RPC fails no CHECK while the ops it removes are in `ops_`, once each. -/
theorem rpcStep_ne_error {r : ℕ} {rpc : AsyncRpc} (hnd : rpc.ops.Nodup)
    (hsub : rpc.phase = .removing → ∀ x ∈ rpc.ops, x ∈ s.ops) (e : CheckFailure) :
    s.rpcStep f r rpc ≠ some (.error e) := by
  unfold rpcStep
  split
  all_goals try simp
  rename_i hp
  cases hm : removeInFlightOpsAfterFlushing rpc.ops s with
  | error e' => exact absurd hm (removeInFlightOpsAfterFlushing_ne_error hnd (hsub hp) e')
  | ok s' => simp [Except.map]

/-- The only CHECK of an RPC's completion is that of `RemoveInFlightOpsAfterFlushing`. -/
theorem rpcStep_error {r : ℕ} {rpc : AsyncRpc} {e : CheckFailure}
    (h : s.rpcStep f r rpc = some (.error e)) : e = .removeNotInFlight := by
  unfold rpcStep at h
  split at h
  all_goals try simp at h
  cases hm : removeInFlightOpsAfterFlushing rpc.ops s with
  | error e' =>
    rw [hm] at h
    obtain rfl := Except.error.inj h
    exact removeInFlightOpsAfterFlushing_error hm
  | ok s' => simp [hm, Except.map] at h

/-! ### The calls entering the batcher -/

/-- `Add` fails only the CHECK on `state_`, while the next sequence number is not in `ops_`. -/
theorem enter_add_error {yb : YBOperation} {e : CheckFailure}
    (hnext : s.nextOpSequenceNumber ∉ s.ops) (hx : s.enter f (.add yb) = some (.error e)) :
    e = .addNotGathering ∧ s.state ≠ .kGatheringOps := by
  simp only [enter, Option.some.injEq, add] at hx
  split at hx
  · cases hx
  · simp only [addInFlightOp] at hx
    split_ifs at hx with hg
    · exact ⟨(Except.error.inj hx).symm, hg⟩
    · cases hx

theorem enter_flushAsync_error {now : ℤ} {e : CheckFailure}
    (hx : s.enter f (.flushAsync now) = some (.error e)) :
    e = .flushAsyncNotGathering ∧ s.state ≠ .kGatheringOps := by
  simp only [enter, flushAsync, Option.some.injEq] at hx
  split_ifs at hx with hg
  exact ⟨(Except.error.inj hx).symm, hg⟩

theorem enter_setTimeout_error {t : ℤ} {e : CheckFailure}
    (hx : s.enter f (.setTimeout t) = some (.error e)) : e = .negativeTimeout ∧ t < 0 := by
  simp only [enter, setTimeout, Option.some.injEq] at hx
  split_ifs at hx with ht
  · exact ⟨(Except.error.inj hx).symm, ht⟩
  · cases hx

theorem enter_abort_ne_error {st : Status} {e : CheckFailure} (hnd : s.ops.Nodup) :
    s.enter f (.abort st) ≠ some (.error e) := fun hx =>
  abort_ne_error hnd st e (Option.some.inj hx)

/-- `TransactionReady` with an error calls `Abort`, which fails no CHECK. -/
theorem enter_transactionReady_ne_error {st : Status} {e : CheckFailure} (hnd : s.ops.Nodup) :
    s.enter f (.transactionReady st) ≠ some (.error e) := fun hx => by
  simp only [enter] at hx
  split_ifs at hx with hw hst
  · cases hx
  · exact abort_ne_error (s := { s with waiters := s.waiters - 1 }) hnd st e (Option.some.inj hx)

/-! ### What the census guarantees -/

section Census

variable (hc : s.Census)
include hc

/-- An RPC holds each op once. -/
theorem Census.rpc_nodup {rpc : AsyncRpc} (hr : rpc ∈ s.rpcs) : rpc.ops.Nodup := by
  have hsub : rpc.ops.Sublist s.dispatched := by
    rw [dispatched, List.flatMap_def]
    exact List.sublist_flatten_of_mem (List.mem_map_of_mem _ hr)
  refine List.nodup_iff_count_le_one.2 fun x => (hsub.count_le x).trans ?_
  have := (hc.census_at x).1
  rw [count_placesOf] at this
  omega

/-- A pending op is looking up its tablet, and is in `ops_`. -/
theorem Census.pending {x : ℕ} (hx : x ∈ s.pendingLookups) :
    (s.heap x).state = .kLookingUpTablet ∧ x ∈ s.ops := by
  obtain ⟨-, -, h3, -, h5, h6⟩ := hc.census_at x
  have hpos : 0 < (s.pendingOf s.frames).count x := List.count_pos_iff.2 hx
  refine ⟨by_contra fun hne => by have := h3 hne; omega, List.count_pos_iff.1 ?_⟩
  by_cases ha : s.state = .kAborted
  · rwa [← h6 ha]
  · have := h5 ha
    rw [count_censusOf] at this
    omega

/-- `ops_` holds each op once, and not the next one to be admitted. -/
theorem Census.ops_nodup : s.ops.Nodup ∧ s.nextOpSequenceNumber ∉ s.ops := by
  have hle : ∀ x, s.ops.count x ≤ (s.placesOf s.frames).count x := fun x => by
    obtain ⟨-, -, -, -, h5, h6⟩ := hc.census_at x
    have := count_inFlightOps_le s x
    rw [count_placesOf]
    by_cases ha : s.state = .kAborted
    · rw [← h6 ha]; omega
    · have h5 := h5 ha
      rw [count_censusOf] at h5
      omega
  refine ⟨List.nodup_iff_count_le_one.2 fun x => (hle x).trans (hc.census_at x).1, fun hm => ?_⟩
  have := (hc.census_at _).2.1 le_rfl
  have := hle s.nextOpSequenceNumber
  have := List.count_pos_iff.2 hm
  omega

/-- The answer to a pending lookup fails a CHECK only if it is a null tablet before `Abort`. -/
theorem Census.lookupFinished_error {op : ℕ} {r : LookupResult} {e : CheckFailure}
    (hx : s.enter f (.lookupFinished op r) = some (.error e)) :
    r = .ok 0 ∧ e = .lookupNullTablet ∧ s.state ≠ .kAborted := by
  simp only [enter] at hx
  split_ifs at hx with hop
  obtain ⟨hlook, hops⟩ := hc.pending (List.mem_append_right _ hop)
  by_cases hr : r = .ok 0 ∧ s.state ≠ .kAborted
  · obtain ⟨rfl, hna⟩ := hr
    simp [tabletLookupFinished, hna, hlook] at hx
    exact ⟨rfl, hx.symm, hna⟩
  · exact absurd (Option.some.inj hx) (tabletLookupFinished_ne_error
      (s := { s with lookups := s.lookups.erase op }) hlook hops
      (fun h0 => not_not.1 fun hna => hr ⟨h0, hna⟩) e)

/-- A piece of an RPC's completion fails a CHECK only after `Abort`, in
`RemoveInFlightOpsAfterFlushing`. -/
theorem Census.enter_rpcStep_error {r : ℕ} {e : CheckFailure}
    (hx : s.enter f (.rpcStep r) = some (.error e)) :
    s.state = .kAborted ∧ e = .removeNotInFlight := by
  simp only [enter] at hx
  split at hx
  · rename_i rpc hr
    exact ⟨by_contra fun hna => rpcStep_ne_error (hc.rpc_nodup (List.getElem?_mem hr))
      (fun hp x hx => hc.mem_ops_of_inFlight hna (List.getElem?_mem hr)
        (by simp [AsyncRpc.inFlight, hp]) hx) e hx, rpcStep_error hx⟩
  · cases hx

end Census

/-! ### The CHECKs of every run -/

section Reachable

variable {allowed : Batcher → Label → Prop} (hpos : 0 < f.maxSidecarSlices)
  (h : Reachable f allowed s)
include hpos h

/-- A frame a thread runs fails a CHECK only after `Abort`, in a `RunCallback` whose move found
the callback gone. -/
theorem exec_error {fr : Frame} (hfr : fr ∈ s.frames) {p : Bool} {e : CheckFailure}
    (hx : s.exec f p fr = .error e) : s.state = .kAborted ∧ e = .emptyFlushCallback := by
  have hc := census_reachable h
  cases fr with
  | addTail op =>
    obtain ⟨hlook, hops⟩ := hc.pending (List.mem_append_left _
      (List.mem_flatMap.2 ⟨_, hfr, List.mem_singleton_self op⟩))
    simp only [exec, addTail] at hx
    split_ifs at hx with ht
    exact absurd hx (tabletLookupFinished_ne_error hlook hops
      (fun h0 => absurd (LookupResult.ok.inj h0) ht) e)
  | runCallbackTail st taken =>
    cases taken
    · simp only [exec, runCallbackTail, Bool.false_eq_true, if_false, Except.map,
        Except.error.injEq] at hx
      exact ⟨by_contra fun hna => (callbackOf_reachable h hna).taken st hfr, hx.symm⟩
    · simp [exec, runCallbackTail, Except.map] at hx
  | flushBuffer c =>
    obtain ⟨first, rest, hcs⟩ := List.exists_cons_of_ne_nil ((callsInv_reachable hpos h).bounded c
      (List.mem_append_right _ (List.mem_flatMap.2 ⟨_, hfr, List.mem_singleton_self c⟩))).1
    simp [exec, flushBuffer, hcs, Except.map] at hx
  | _ => simp [exec] at hx

/-- Before `Abort`, while an RPC waits for its response the batch flushes. -/
theorem state_of_sent (hna : s.state ≠ .kAborted) {rpc : AsyncRpc} (hr : rpc ∈ s.rpcs)
    (hsent : rpc.phase = .sent) : s.state = .kFlushing := by
  have hc := census_reachable h
  have hw := swapInv_reachable h
  obtain ⟨x, hx⟩ := List.exists_mem_of_ne_nil _ ((callsInv_reachable hpos h).bounded rpc.call
    (List.mem_append_left _ (List.mem_map_of_mem _ hr))).1
  have hops := hc.mem_ops_of_inFlight hna hr (by simp [AsyncRpc.inFlight, hsent]) hx
  have hsw : s.Swapped := by_contra fun hns => by simp [(hw.before_swap hns).1] at hr
  have hfl : s.state ≠ .kFlushed := fun hf => by
    simp [(outcome_reachable h).flushed_empty hf] at hops
  have hg := (hw.after_swap hsw).2.2.1
  cases hs : s.state <;> simp_all

/-- The response of an RPC fails the CHECK on `state_` only after `Abort`. -/
theorem enter_rpcFinished_error {r : ℕ} {st : Status} {errs : List PerRowError}
    {e : CheckFailure} (hx : s.enter f (.rpcFinished r st errs) = some (.error e)) :
    s.state = .kAborted ∧ e = .rpcNotFlushing := by
  simp only [enter] at hx
  split at hx
  · rename_i rpc hr
    split_ifs at hx with hsent
    simp only [Option.some.injEq, processRpcStatus] at hx
    split_ifs at hx with hfl
    · exact ⟨by_contra fun hna => hfl (state_of_sent hpos h hna (List.getElem?_mem hr) hsent),
        (Except.error.inj hx).symm⟩
    · cases hx
  · cases hx

/-- **Which CHECKs fail.**  With `kMaxSidecarSlices ≥ 1`, in every run, whatever the order of
the calls, the lookups' answers, the transaction's answers and the RPCs' completions: a step
fails a CHECK of the batcher only if the caller breaks its contract (`Add` or `FlushAsync` once
the batch has left `kGatheringOps`, `SetTimeout` with a negative timeout), the meta cache answers
a lookup with a null tablet before `Abort`, or, once the batch is aborted, an RPC still in flight
gets its response (`CHECK_EQ(state_, kFlushing)`), removes the ops `Abort` already failed from
`ops_` (`CHECK_EQ(1, ops_.erase(op))`), or a `RunCallback` finds the callback `Abort` already
ran.  No `Abort`, no `TransactionReady`, no `FlushBuffer` and no other frame fails one. -/
theorem check_failures {l : Label} {e : CheckFailure} (he : s.step f l = some (.error e)) :
    (∃ yb, l = .add yb ∧ e = .addNotGathering ∧ s.state ≠ .kGatheringOps) ∨
    (∃ now, l = .flushAsync now ∧ e = .flushAsyncNotGathering ∧ s.state ≠ .kGatheringOps) ∨
    (∃ t, l = .setTimeout t ∧ e = .negativeTimeout ∧ t < 0) ∨
    (∃ op, l = .lookupFinished op (.ok 0) ∧ e = .lookupNullTablet ∧ s.state ≠ .kAborted) ∨
    (s.state = .kAborted ∧
      ((∃ r st errs, l = .rpcFinished r st errs ∧ e = .rpcNotFlushing) ∨
        (∃ r, l = .rpcStep r ∧ e = .removeNotInFlight) ∨
        (∃ i p, l = .run i p ∧ e = .emptyFlushCallback))) := by
  have hc := census_reachable h
  have hnd := hc.ops_nodup
  rcases step_error he with ⟨i, p, fr, rfl, hfr, hx⟩ | ⟨hnr, hx⟩
  · obtain ⟨ha, rfl⟩ := exec_error hpos h hfr hx
    exact .inr (.inr (.inr (.inr ⟨ha, .inr (.inr ⟨i, p, rfl, rfl⟩)⟩)))
  cases l with
  | add yb => exact .inl ⟨yb, rfl, enter_add_error hnd.2 hx⟩
  | flushAsync now => exact .inr (.inl ⟨now, rfl, enter_flushAsync_error hx⟩)
  | setTimeout t => exact .inr (.inr (.inl ⟨t, rfl, enter_setTimeout_error hx⟩))
  | lookupFinished op r =>
    obtain ⟨rfl, rfl, hna⟩ := hc.lookupFinished_error hx
    exact .inr (.inr (.inr (.inl ⟨op, rfl, rfl, hna⟩)))
  | abort st => exact absurd hx (enter_abort_ne_error hnd.1)
  | transactionReady st => exact absurd hx (enter_transactionReady_ne_error hnd.1)
  | rpcFinished r st errs =>
    obtain ⟨ha, rfl⟩ := enter_rpcFinished_error hpos h hx
    exact .inr (.inr (.inr (.inr ⟨ha, .inl ⟨r, st, errs, rfl, rfl⟩⟩)))
  | rpcStep r =>
    obtain ⟨ha, rfl⟩ := hc.enter_rpcStep_error hx
    exact .inr (.inr (.inr (.inr ⟨ha, .inr (.inl ⟨r, rfl, rfl⟩)⟩)))
  | run i p => exact absurd rfl (hnr i p)

end Reachable

/-- `Add` after `FlushAsync` fails the CHECK of `AddInFlightOp`. -/
theorem check_failures_add_after_flush :
    ∃ s : Batcher, 0 < (⟨false, false, 1⟩ : Flags).maxSidecarSlices ∧
      Reachable ⟨false, false, 1⟩ anyStep s ∧
      s.step ⟨false, false, 1⟩ (.add ⟨.qlWrite, false, .strong, false, 0, .ok "k", false, none⟩) =
        some (.error .addNotGathering) ∧
      ((∃ yb, Label.add ⟨.qlWrite, false, .strong, false, 0, .ok "k", false, none⟩ = .add yb ∧
          CheckFailure.addNotGathering = .addNotGathering ∧ s.state ≠ .kGatheringOps) ∨
        (∃ now, Label.add ⟨.qlWrite, false, .strong, false, 0, .ok "k", false, none⟩ =
            .flushAsync now ∧
          CheckFailure.addNotGathering = .flushAsyncNotGathering ∧ s.state ≠ .kGatheringOps) ∨
        (∃ t, Label.add ⟨.qlWrite, false, .strong, false, 0, .ok "k", false, none⟩ =
            .setTimeout t ∧ CheckFailure.addNotGathering = .negativeTimeout ∧ t < 0) ∨
        (∃ op, Label.add ⟨.qlWrite, false, .strong, false, 0, .ok "k", false, none⟩ =
            .lookupFinished op (.ok 0) ∧ CheckFailure.addNotGathering = .lookupNullTablet ∧
          s.state ≠ .kAborted) ∨
        (s.state = .kAborted ∧
          ((∃ r st errs, Label.add ⟨.qlWrite, false, .strong, false, 0, .ok "k", false, none⟩ =
              .rpcFinished r st errs ∧ CheckFailure.addNotGathering = .rpcNotFlushing) ∨
            (∃ r, Label.add ⟨.qlWrite, false, .strong, false, 0, .ok "k", false, none⟩ =
              .rpcStep r ∧ CheckFailure.addNotGathering = .removeNotInFlight) ∨
            (∃ i p, Label.add ⟨.qlWrite, false, .strong, false, 0, .ok "k", false, none⟩ =
              .run i p ∧ CheckFailure.addNotGathering = .emptyFlushCallback)))) := by
  have hrun : (Batcher.init false false false).run ⟨false, false, 1⟩ [.flushAsync 0] =
      some (.ok _) := rfl
  have hr : Reachable ⟨false, false, 1⟩ anyStep _ :=
    Reachable.run (.init false false false) (fun _ _ _ => trivial) hrun
  exact ⟨_, by decide, hr, rfl, check_failures (by decide) hr rfl⟩

end Batcher

end ClientBatcher
