import ClientBatcher.Combine

/-!
# No op is lost

The batcher answers for every op it admits in one of three ways: the op is still in `ops_` (its
lookup is pending, it waits in `ops_queue_` or a local list, or its RPC is in flight), its failure
is in the error collector (`CombineErrorUnlocked` calls `AddError`), or it travelled in an RPC
whose completion has run.  An op leaves `ops_` only through `MarkInFlightOpFailedUnlocked`, which
records its error, or through `RemoveInFlightOpsAfterFlushing`, after which its RPC is out of
flight; and the error collector and the completed RPCs only grow.  So this holds in every run,
`Abort` included, where `ops_` keeps only the ops whose lookup is pending: those fail with
`Batch aborted` when their lookups answer.

For an op that never reaches an RPC the count is exact: `MarkInFlightOpFailedUnlocked`, in a
lookup's answer or in `Abort`'s loop, is the only code that records an error for it, and it moves
the op out of `ops_` in the same critical section.  So such an op is reported exactly once, when
it leaves `ops_`.  An op in an RPC may collect more than one error: its RPC's status, and one per
per-row error that names its index.

* `Accounted` : every admitted op is in `ops_`, in the error collector, or in a completed RPC.
* `Accounted.act` : every action keeps it.
* `ops_accounted` : **no op is lost**, in every run.
* `ReportedOnce` : for an op no RPC carries, its errors and its copies in `ops_` add up to one.
* `unsent_reported_once` : **each op that no RPC carries is reported once**, in every run.
-/

namespace ClientBatcher

namespace Batcher

variable {f : Flags} {s sd : Batcher} {k : List Frame}

/-- Every admitted op is in `ops_`, has an error in the error collector, or travelled in an RPC
whose completion has run. -/
def Accounted (s : Batcher) : Prop :=
  ∀ x < s.nextOpSequenceNumber, x ∈ s.ops ∨ (∃ st, (x, st) ∈ s.errors) ∨
    ∃ rpc ∈ s.rpcs, x ∈ rpc.ops ∧ rpc.inFlight = false

/-- A change that puts the ops it admits in `ops_`, keeps the errors and the RPCs out of flight,
and removes from `ops_` only ops it reports or whose RPC it completes keeps the invariant. -/
theorem Accounted.of_le (h : s.Accounted)
    (hn : ∀ x < sd.nextOpSequenceNumber, x < s.nextOpSequenceNumber ∨ x ∈ sd.ops)
    (herr : ∀ e ∈ s.errors, e ∈ sd.errors)
    (hdone : ∀ rpc ∈ s.rpcs, rpc.inFlight = false →
      ∃ rpc' ∈ sd.rpcs, rpc'.ops = rpc.ops ∧ rpc'.inFlight = false)
    (hleft : ∀ x ∈ s.ops, x ∉ sd.ops → (∃ st, (x, st) ∈ sd.errors) ∨
      ∃ rpc ∈ sd.rpcs, x ∈ rpc.ops ∧ rpc.inFlight = false) :
    sd.Accounted := by
  intro x hx
  rcases hn x hx with hlt | hm
  · rcases h x hlt with hm | ⟨st, he⟩ | ⟨rpc, hr, hxr, hf⟩
    · by_cases hm' : x ∈ sd.ops
      · exact .inl hm'
      · exact .inr (hleft x hm hm')
    · exact .inr (.inl ⟨st, herr _ he⟩)
    · obtain ⟨rpc', hr', hops, hf'⟩ := hdone rpc hr hf
      exact .inr (.inr ⟨rpc', hr', hops ▸ hxr, hf'⟩)
  · exact .inl hm

/-- `MarkInFlightOpFailedUnlocked`: the op it erases from `ops_` is reported. -/
theorem Accounted.markFailed {t u : Batcher} {op : ℕ} {st : Status} (h : t.Accounted)
    (hn : u.nextOpSequenceNumber = t.nextOpSequenceNumber) (he : u.errors = t.errors)
    (hr : u.rpcs = t.rpcs) :
    (combineErrorUnlocked f op st { u with ops := t.ops.erase op }).Accounted := by
  refine h.of_le (fun x hx => .inl (hn ▸ hx)) (fun e he' => by simp [combineErrorUnlocked, he, he'])
    (fun rpc hrpc hf => ⟨rpc, hr ▸ hrpc, rfl, hf⟩) fun x hx hx' => .inl ⟨st, ?_⟩
  obtain rfl : x = op := by_contra fun hne => hx' ((List.mem_erase_of_ne hne).2 hx)
  simp [combineErrorUnlocked]

/-- The ops `MarkInFlightOpFailedUnlocked` erases in `Abort`'s loop are reported. -/
theorem markAllFailed_left {st : Status} {l : List ℕ} {t t' : Batcher}
    (hm : markAllFailed f st l t = .ok t') : ∀ x ∈ t.ops, x ∉ t'.ops → (x, st) ∈ t'.errors := by
  intro x hx hx'
  have herr := (markAllFailed_errors hm).1
  obtain ⟨ops, errors, ce, he, rfl, hc⟩ := markAllFailed_ok hm
  have hl : 0 < l.count x := by
    have := hc x
    have := List.count_pos_iff.2 hx
    have : ops.count x = 0 := List.count_eq_zero.2 hx'
    omega
  rw [herr]
  exact List.mem_append_right _ (List.mem_map.2 ⟨x, List.count_pos_iff.1 hl, rfl⟩)

theorem Accounted.abort {st : Status} (h : s.Accounted) (ha : s.abort f st = .ok (sd, k)) :
    sd.Accounted := by
  obtain ⟨hm, -⟩ := map_pair_ok.1 ha
  have hleft := markAllFailed_left hm
  have herr := (markAllFailed_errors hm).1
  obtain ⟨ops, errors, ce, he, rfl, -⟩ := markAllFailed_ok hm
  exact h.of_le (fun x hx => .inl hx) (fun e he' => by rw [herr]; exact List.mem_append_left _ he')
    (fun rpc hr hf => ⟨rpc, hr, rfl, hf⟩) fun x hx hx' => .inl ⟨st, hleft x hx hx'⟩

theorem Accounted.lookup {op : ℕ} {r : LookupResult} (h : s.Accounted)
    (hl : LookupEffect f op r s sd k) : sd.Accounted := by
  cases hl
  case found => exact h
  all_goals exact h.markFailed rfl rfl rfl

/-- A piece of an RPC's response or completion, which replaces the RPC by one with its ops, out of
flight if it was, and removes from `ops_` only ops of that RPC, which it takes out of flight. -/
theorem Accounted.setRpc {t : Batcher} {r : ℕ} {rpc rpc' : AsyncRpc} (h : s.Accounted)
    (hr : s.rpcs[r]? = some rpc) (hops : rpc'.ops = rpc.ops)
    (hfl : rpc.inFlight = false → rpc'.inFlight = false)
    (hn : t.nextOpSequenceNumber = s.nextOpSequenceNumber) (hrpcs : t.rpcs = s.rpcs)
    (herr : ∀ e ∈ s.errors, e ∈ t.errors)
    (hleft : ∀ x ∈ s.ops, x ∉ t.ops → x ∈ rpc.ops ∧ rpc'.inFlight = false) :
    (t.setRpc r rpc').Accounted := by
  refine h.of_le (fun x hx => .inl (hn ▸ hx)) herr (fun q hq hf => ?_) fun x hx hx' => ?_
  · obtain ⟨q', hq', hops', hf'⟩ := done_set hr hops hfl q hq hf
    exact ⟨q', by rwa [setRpc_rpcs, hrpcs], hops', hf'⟩
  · obtain ⟨hxr, hf⟩ := hleft x hx hx'
    refine .inr ⟨rpc', ?_, hops ▸ hxr, hf⟩
    rw [setRpc_rpcs, hrpcs]
    exact List.mem_set _ _ (List.getElem?_eq_some_iff.1 hr).1 _

/-- A piece of the response or completion of an RPC in flight that keeps `ops_`. -/
theorem Accounted.setRpc_inFlight {t : Batcher} {r : ℕ} {rpc rpc' : AsyncRpc} (h : s.Accounted)
    (hr : s.rpcs[r]? = some rpc) (hin : rpc.inFlight = true) (hops : rpc'.ops = rpc.ops)
    (hn : t.nextOpSequenceNumber = s.nextOpSequenceNumber) (hrpcs : t.rpcs = s.rpcs)
    (ho : t.ops = s.ops) (herr : ∀ e ∈ s.errors, e ∈ t.errors) : (t.setRpc r rpc').Accounted :=
  h.setRpc hr hops (fun hf => absurd (hin.symm.trans hf) Bool.noConfusion) hn hrpcs herr
    fun _ hx hx' => absurd (ho ▸ hx) hx'

/-- **What an action does to it.**  Every action keeps the invariant. -/
theorem Accounted.act {a : Action} (h : s.Accounted) (ha : Effect f s a sd k) :
    sd.Accounted := by
  cases ha
  case add =>
    exact h.of_le (fun x hx => (Nat.lt_succ_iff_lt_or_eq.1 hx).imp_right fun hx => by simp [hx])
      (fun e he => he) (fun rpc hr hf => ⟨rpc, hr, rfl, hf⟩)
      fun x hx hx' => absurd (List.mem_append_left _ hx) hx'
  case abort ha => exact h.abort ha
  case transactionFailed ha => exact Accounted.abort (s := { s with waiters := s.waiters - 1 }) h ha
  case lookupFinished hl =>
    exact Accounted.lookup (s := { s with lookups := s.lookups.erase _ }) h hl
  case addTailFound hl => exact h.lookup hl
  case rpcFailed hr hp =>
    rw [foldl_combineErrorUnlocked]
    exact h.setRpc_inFlight hr (by simp [AsyncRpc.inFlight, hp]) rfl rfl rfl rfl
      fun e he => List.mem_append_left _ he
  case rpcRowError hr hp _ =>
    exact h.setRpc_inFlight hr (by simp [AsyncRpc.inFlight, hp]) rfl rfl rfl rfl
      fun e he => by simp [combineErrorUnlocked, he]
  case rpcFinished hr hp _ | rpcRowErrorSkipped hr hp _ | rpcRowErrorsDone hr hp =>
    exact h.setRpc_inFlight hr (by simp [AsyncRpc.inFlight, hp]) rfl rfl rfl rfl fun e he => he
  case rpcRemoved hr hp hrm =>
    obtain ⟨ops, rfl, hc⟩ := removeInFlightOpsAfterFlushing_ok hrm
    refine h.setRpc hr rfl (fun hf => by simp [AsyncRpc.inFlight, hp] at hf) rfl rfl
      (fun e he => he) fun x hx hx' => ⟨?_, rfl⟩
    have := hc x
    have := List.count_pos_iff.2 hx
    have : ops.count x = 0 := List.count_eq_zero.2 hx'
    exact List.count_pos_iff.1 (by omega)
  case rpcNotified hr _ =>
    exact h.setRpc hr rfl (fun _ => rfl) rfl rfl (fun e he => he) fun x hx hx' => absurd hx hx'
  case flushBuffer =>
    exact h.of_le (fun x hx => .inl hx) (fun e he => he)
      (fun rpc hr hf => ⟨rpc, List.mem_append_left _ hr, rfl, hf⟩) fun x hx hx' => absurd hx hx'
  all_goals exact h

theorem Accounted.step {s s' : Batcher} {l : Label} (h : s.Accounted)
    (hs : s.step f l = some (.ok s')) : s'.Accounted := by
  obtain ⟨a, sd, k, R, ha, heq, -⟩ := step_ok hs
  have hsd := h.act ha
  rw [heq]
  exact hsd

theorem accounted_reachable {allowed : Batcher → Label → Prop} (h : Reachable f allowed s) :
    s.Accounted :=
  h.invariant (fun _ _ _ x hx => absurd hx (Nat.not_lt_zero x)) fun _ hs _ hstep => hs.step hstep

/-- **No op is lost.**  In every run, `Abort` included, whatever the interleaving: every admitted
op is pending its lookup, is in `ops_` of a batch that has not aborted, has an error in the error
collector, or travelled in an RPC whose completion has run.  Once the batch is aborted, an op
that is neither reported nor written is one whose lookup is pending, and its lookup's answer
reports it. -/
theorem ops_accounted {allowed : Batcher → Label → Prop} (h : Reachable f allowed s) :
    ∀ x < s.nextOpSequenceNumber, x ∈ s.pendingLookups ∨ (s.state ≠ .kAborted ∧ x ∈ s.ops) ∨
      (∃ st, (x, st) ∈ s.errors) ∨ ∃ rpc ∈ s.rpcs, x ∈ rpc.ops ∧ rpc.inFlight = false := by
  have hc := census_reachable h
  intro x hx
  rcases accounted_reachable h x hx with hm | hrest
  · by_cases ha : s.state = .kAborted
    · have h6 := (hc.census_at x).2.2.2.2.2 ha
      exact .inl (List.count_pos_iff.1 (h6 ▸ List.count_pos_iff.2 hm))
    · exact .inr (.inl ⟨ha, hm⟩)
  · exact .inr (.inr hrest)

/-- `Abort` with one op queued and the lookup of another pending: the queued op is reported. -/
theorem ops_accounted_abort_queued :
    ∃ s : Batcher, Reachable ⟨false, false, 1⟩ anyStep s ∧ s.state = .kAborted ∧
      0 < s.nextOpSequenceNumber ∧
      (0 ∈ s.pendingLookups ∨ (s.state ≠ .kAborted ∧ 0 ∈ s.ops) ∨ (∃ st, (0, st) ∈ s.errors) ∨
        ∃ rpc ∈ s.rpcs, 0 ∈ rpc.ops ∧ rpc.inFlight = false) := by
  have hrun : (Batcher.init false false false).run ⟨false, false, 1⟩
      [.add ⟨.qlWrite, false, .strong, false, 7, .ok "k", false, none⟩,
        .add ⟨.qlWrite, false, .strong, false, 0, .ok "k", false, none⟩, .run 0 false,
        .run 0 false, .run 0 false, .abort ⟨.kAborted, "abort"⟩] = some (.ok _) := rfl
  have hr := Reachable.run (.init false false false) (fun _ _ _ => trivial) hrun
  exact ⟨_, hr, rfl, by decide, ops_accounted hr 0 (by decide)⟩

/-! ### Each op that no RPC carries is reported once -/

/-- For an op that no RPC carries, the errors recorded for it and its copies in `ops_` add up to
one if it was admitted and to none otherwise. -/
def ReportedOnce (s : Batcher) : Prop :=
  ∀ x, x ∉ s.dispatched → (s.errors.map Prod.fst).count x + s.ops.count x =
    if x < s.nextOpSequenceNumber then 1 else 0

/-- A change that keeps the admissions and the ops the RPCs carry, and the sum of the errors and
the copies in `ops_` of every op no RPC carries, keeps the invariant. -/
theorem ReportedOnce.of_sum (h : s.ReportedOnce)
    (hn : sd.nextOpSequenceNumber = s.nextOpSequenceNumber)
    (hd : ∀ x, x ∉ sd.dispatched → x ∉ s.dispatched)
    (hsum : ∀ x, x ∉ sd.dispatched → (sd.errors.map Prod.fst).count x + sd.ops.count x =
      (s.errors.map Prod.fst).count x + s.ops.count x) :
    sd.ReportedOnce := fun x hx => by
  rw [hsum x hx, hn]
  exact h x (hd x hx)

/-- `MarkInFlightOpFailedUnlocked` moves one copy of the op from `ops_` to the errors. -/
theorem ReportedOnce.markFailed {t u : Batcher} {op : ℕ} {st : Status} (h : t.ReportedOnce)
    (hop : op ∈ t.ops) (hn : u.nextOpSequenceNumber = t.nextOpSequenceNumber)
    (he : u.errors = t.errors) (hr : u.rpcs = t.rpcs) :
    (combineErrorUnlocked f op st { u with ops := t.ops.erase op }).ReportedOnce := by
  refine h.of_sum hn (fun x hx => by simpa [dispatched, combineErrorUnlocked, hr] using hx)
    fun x _ => ?_
  have := count_erase_add hop x
  simp only [combineErrorUnlocked, he, List.map_append, List.map_cons, List.map_nil,
    List.count_append, List.count_singleton', beq_iff_eq] at this ⊢
  split_ifs at this ⊢ <;> omega

theorem count_map_fst_pair (l : List ℕ) (st : Status) (x : ℕ) :
    ((l.map (·, st)).map Prod.fst).count x = l.count x := by
  simp [Function.comp_def]

theorem ReportedOnce.abort {st : Status} (h : s.ReportedOnce) (ha : s.abort f st = .ok (sd, k)) :
    sd.ReportedOnce := by
  obtain ⟨hm, -⟩ := map_pair_ok.1 ha
  have herr := (markAllFailed_errors hm).1
  obtain ⟨ops, errors, ce, he, rfl, hc⟩ := markAllFailed_ok hm
  refine h.of_sum rfl (fun x hx => hx) fun x _ => ?_
  have := hc x
  simp only at this herr ⊢
  rw [herr, List.map_append, List.count_append, count_map_fst_pair]
  omega

theorem ReportedOnce.lookup {op : ℕ} {r : LookupResult} (h : s.ReportedOnce)
    (hl : LookupEffect f op r s sd k) : sd.ReportedOnce := by
  cases hl
  case aborted _ hop => exact h.markFailed hop rfl rfl rfl
  case found => exact h
  case failed _ _ hop => exact h.markFailed hop rfl rfl rfl

/-- A piece of an RPC's response or completion: it replaces the RPC by one with its ops, and
changes the errors and `ops_` only for ops of that RPC. -/
theorem ReportedOnce.setRpc {t : Batcher} {r : ℕ} {rpc rpc' : AsyncRpc} (h : s.ReportedOnce)
    (hr : s.rpcs[r]? = some rpc) (hops : rpc'.ops = rpc.ops)
    (hn : t.nextOpSequenceNumber = s.nextOpSequenceNumber) (hrpcs : t.rpcs = s.rpcs)
    (hsum : ∀ x ∉ rpc.ops, (t.errors.map Prod.fst).count x + t.ops.count x =
      (s.errors.map Prod.fst).count x + s.ops.count x) :
    (t.setRpc r rpc').ReportedOnce := by
  have hd : (t.setRpc r rpc').dispatched = s.dispatched := by
    rw [dispatched, setRpc_rpcs, hrpcs, flatMap_set_of_eq hr _ hops]
    rfl
  refine h.of_sum hn (fun x hx => hd ▸ hx) fun x hx => hsum x fun hx' => hx ?_
  rw [hd]
  exact List.mem_flatMap.2 ⟨rpc, List.getElem?_mem hr, hx'⟩

/-- **What an action does to it.**  Every action keeps the invariant. -/
theorem ReportedOnce.act {a : Action} (h : s.ReportedOnce) (ha : Effect f s a sd k) :
    sd.ReportedOnce := by
  cases ha
  case add _ _ hnext =>
    intro x hx
    have := h x hx
    simp only [insertOp, List.count_append, List.count_singleton', beq_iff_eq] at this ⊢
    by_cases hxn : x = s.nextOpSequenceNumber
    · subst hxn
      have hn0 := List.count_eq_zero.2 hnext
      simp only [lt_irrefl, if_false, if_true, Nat.lt_succ_self] at this ⊢
      omega
    · split_ifs at this ⊢ <;> omega
  case abort ha => exact h.abort ha
  case transactionFailed ha =>
    exact ReportedOnce.abort (s := { s with waiters := s.waiters - 1 }) h ha
  case lookupFinished hl =>
    exact ReportedOnce.lookup (s := { s with lookups := s.lookups.erase _ }) h hl
  case addTailFound hl => exact h.lookup hl
  case rpcFailed hr _ =>
    rw [foldl_combineErrorUnlocked]
    refine h.setRpc hr rfl rfl rfl fun x hx => ?_
    simp only [List.map_append, List.count_append, count_map_fst_pair, List.count_eq_zero.2 hx]
    omega
  case rpcRowError hr _ hy =>
    refine h.setRpc hr rfl rfl rfl fun x hx => ?_
    have hne : _ ≠ x := fun he => hx (he ▸ List.getElem?_mem hy)
    simp [combineErrorUnlocked, List.count_singleton', hne]
  case rpcRemoved hr _ hrm =>
    obtain ⟨ops, rfl, hc⟩ := removeInFlightOpsAfterFlushing_ok hrm
    refine h.setRpc hr rfl rfl rfl fun x hx => ?_
    have := hc x
    rw [List.count_eq_zero.2 hx] at this
    simp only
    omega
  case rpcFinished hr _ _ | rpcRowErrorSkipped hr _ _ | rpcRowErrorsDone hr _ |
      rpcNotified hr _ =>
    exact h.setRpc hr rfl rfl rfl fun _ _ => rfl
  case flushBuffer =>
    exact h.of_sum rfl (fun x hx hx' => hx (by simp [dispatched] at hx' ⊢; exact .inl hx'))
      fun _ _ => rfl
  all_goals exact h

theorem ReportedOnce.step {s s' : Batcher} {l : Label} (h : s.ReportedOnce)
    (hs : s.step f l = some (.ok s')) : s'.ReportedOnce := by
  obtain ⟨a, sd, k, R, ha, heq, -⟩ := step_ok hs
  have hsd := h.act ha
  rw [heq]
  exact hsd

theorem reportedOnce_reachable {allowed : Batcher → Label → Prop} (h : Reachable f allowed s) :
    s.ReportedOnce :=
  h.invariant (fun _ _ _ x _ => by simp [init]) fun _ hs _ hstep => hs.step hstep

/-- **Each op that no RPC carries is reported once.**  In every run, `Abort` included, whatever
the interleaving: for an op that no `FlushBuffer` call has put in an RPC, the errors recorded for
it and its copies in `ops_` add up to one if it was admitted, and to none otherwise.  So while it
is in `ops_` (its lookup pending, queued, or in a local list) no error is recorded for it, and
once it has left `ops_`, because its lookup failed or `Abort` failed it, exactly one is. -/
theorem unsent_reported_once {allowed : Batcher → Label → Prop} (h : Reachable f allowed s)
    {x : ℕ} (hx : x ∉ s.dispatched) :
    (s.errors.map Prod.fst).count x + s.ops.count x =
      if x < s.nextOpSequenceNumber then 1 else 0 :=
  reportedOnce_reachable h x hx

/-- The op that `Abort` failed in the queue: one error, and out of `ops_`. -/
theorem unsent_reported_once_abort_queued :
    ∃ s : Batcher, Reachable ⟨false, false, 1⟩ anyStep s ∧ 0 ∉ s.dispatched ∧ 0 ∉ s.ops ∧
      (s.errors.map Prod.fst).count 0 + s.ops.count 0 =
        if 0 < s.nextOpSequenceNumber then 1 else 0 := by
  have hrun : (Batcher.init false false false).run ⟨false, false, 1⟩
      [.add ⟨.qlWrite, false, .strong, false, 7, .ok "k", false, none⟩,
        .add ⟨.qlWrite, false, .strong, false, 0, .ok "k", false, none⟩, .run 0 false,
        .run 0 false, .run 0 false, .abort ⟨.kAborted, "abort"⟩] = some (.ok _) := rfl
  have hr := Reachable.run (.init false false false) (fun _ _ _ => trivial) hrun
  exact ⟨_, hr, by decide, by decide, unsent_reported_once hr (by decide)⟩

end Batcher

end ClientBatcher
