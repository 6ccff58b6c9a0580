import ClientBatcher.Outcome

/-!
# Quiescence

The batch has no thread of its own: it goes on only when a caller, the meta cache, the
transaction or an RPC's completion runs its code.  So a flush ends only if every obligation it
leaves is owned by code that will run: the swap of `ops_queue_` by a `FlushBuffersIfReady` still
to run (every lookup and `TransactionReady` starts one) or by a `TransactionReady` the transaction
holds; the check for the end of the flush by a `CheckForFinishedFlush` still to run (a failed
lookup and every RPC's completion start one); the flush callback by the unlocked tail of
`CheckForFinishedFlush`.

`ProgressOf` is the invariant of every run that says so, for the batcher's fields and the frames
of its threads.  A quiescent batcher (`Quiescent`) has no frame, lookup, held `TransactionReady`
or completion left, so it has no obligation left either.

`quiescent_complete` : in every run, a quiescent batcher past `kGatheringOps` passes the checks
of `~Batcher` (`Batcher.destructor`): `ops_` is empty and `state_` is `kFlushed` or `kAborted`;
unless it was aborted, it is `kFlushed` and the flush callback has run.
-/

namespace ClientBatcher

/-- A frame that discharges an obligation of the flush: the checks of `FlushBuffersIfReady` and
of `CheckForFinishedFlush`, and the pieces that run the flush callback. -/
def Frame.isTrigger : Frame → Bool
  | .flushBuffersIfReady | .checkForFinishedFlush | .flushFinished | .runCallback _
  | .runCallbackTail _ _ => true
  | _ => false

namespace Batcher

variable {f : Flags} {s sd : Batcher} {c k R : List Frame}

/-- Nothing is going on: no thread is inside the batcher's code, no lookup is pending, the
transaction holds no `TransactionReady` callback, and the completion of every RPC has run. -/
def Quiescent (s : Batcher) : Prop :=
  s.threads = [] ∧ s.lookups = [] ∧ s.waiters = 0 ∧ ∀ rpc ∈ s.rpcs, rpc.phase = .done

instance : DecidablePred Quiescent := fun s =>
  inferInstanceAs (Decidable (_ ∧ _ ∧ _ ∧ ∀ rpc ∈ s.rpcs, rpc.phase = .done))

/-- The obligations of the flush and the code that owns them, for the batcher's fields `s` and
the frames `fr` of its threads. -/
structure ProgressOf (s : Batcher) (fr : List Frame) : Prop where
  /-- Ops queued once every lookup is answered will be swapped out. -/
  swap_pending : s.state = .kFlushing → s.outstandingLookups = 0 → s.opsQueue ≠ [] →
    Frame.flushBuffersIfReady ∈ fr ∨ 0 < s.waiters
  /-- An empty `ops_` will be noticed. -/
  check_pending : s.state = .kFlushing → s.ops = [] →
    Frame.checkForFinishedFlush ∈ fr ∨ ∃ rpc ∈ s.rpcs, rpc.phase = .notifying
  /-- A flushed batch runs its callback. -/
  callback_pending : s.state = .kFlushed → (∃ st, Event.callback st ∈ s.trace) ∨
    Frame.flushFinished ∈ fr ∨ ∃ c ∈ fr, ∃ st, c.callbackStatus = some st

/-- The invariant of every run. -/
def Progress (s : Batcher) : Prop := s.ProgressOf s.frames

theorem ProgressOf.perm {fr fr' : List Frame} (h : s.ProgressOf fr) (hp : fr.Perm fr') :
    s.ProgressOf fr' where
  swap_pending h1 h2 h3 := (h.swap_pending h1 h2 h3).imp_left hp.mem_iff.1
  check_pending h1 h2 := (h.check_pending h1 h2).imp_left hp.mem_iff.1
  callback_pending hf := (h.callback_pending hf).imp_right
    (Or.imp hp.mem_iff.1 fun ⟨c, hm, hc⟩ => ⟨c, hp.mem_iff.1 hm, hc⟩)

/-- The invariant reads only these fields of the batcher. -/
theorem ProgressOf.congr {fr : List Frame} (h : s.ProgressOf fr) (h1 : sd.state = s.state)
    (h2 : sd.ops = s.ops) (h3 : sd.opsQueue = s.opsQueue)
    (h4 : sd.outstandingLookups = s.outstandingLookups) (h5 : sd.waiters = s.waiters)
    (h6 : sd.rpcs = s.rpcs) (h7 : sd.trace = s.trace) : sd.ProgressOf fr := by
  obtain ⟨a1, a2, a3⟩ := h
  simp only [← h1, ← h2, ← h3, ← h4, ← h5, ← h6, ← h7] at a1 a2 a3
  exact ⟨a1, a2, a3⟩

/-- A batch still gathering ops, or aborted, owes nothing. -/
theorem ProgressOf.of_state {fr : List Frame}
    (hst : s.state = .kGatheringOps ∨ s.state = .kAborted) : s.ProgressOf fr where
  swap_pending h1 := by rcases hst with h | h <;> rw [h] at h1 <;> cases h1
  check_pending h1 := by rcases hst with h | h <;> rw [h] at h1 <;> cases h1
  callback_pending h1 := by rcases hst with h | h <;> rw [h] at h1 <;> cases h1

/-- A trigger frame other than the one that runs stays. -/
theorem mem_of_mem_cons_ne {x y : Frame} (hx : x ∈ y :: R) (hne : x ≠ y) : x ∈ k ++ R :=
  List.mem_append_right _ (List.mem_of_ne_of_mem hne hx)

/-- The RPCs after one that is not waiting for its `CheckForFinishedFlush` is replaced: every
other one still is. -/
theorem notify_set {l : List AsyncRpc} {r : ℕ} {a b : AsyncRpc} (hb : l[r]? = some b)
    (hn : b.phase ≠ .notifying) :
    ∀ y ∈ l, y.phase = .notifying → ∃ y' ∈ l.set r a, y'.phase = .notifying :=
  fun y hy hyn => ⟨y, mem_set_of_ne hb hy fun e => hn (e ▸ hyn), hyn⟩

/-- An action that runs none of the trigger frames keeps the invariant if every obligation it
leaves is one it owns by a frame it starts (or a held `TransactionReady`, or an RPC waiting for
its check), or one that was owned before and still is. -/
theorem ProgressOf.quiet (h : s.ProgressOf (c ++ R)) (hc : ∀ x ∈ c, x.isTrigger = false)
    (hswap : sd.state = .kFlushing → sd.outstandingLookups = 0 → sd.opsQueue ≠ [] →
      Frame.flushBuffersIfReady ∈ k ∨ 0 < sd.waiters ∨
      (s.state = .kFlushing ∧ s.outstandingLookups = 0 ∧ s.opsQueue ≠ [] ∧ s.waiters ≤ sd.waiters))
    (hcheck : sd.state = .kFlushing → sd.ops = [] →
      Frame.checkForFinishedFlush ∈ k ∨ (∃ rpc ∈ sd.rpcs, rpc.phase = .notifying) ∨
      (s.state = .kFlushing ∧ s.ops = []))
    (hnotify : ∀ rpc ∈ s.rpcs, rpc.phase = .notifying →
      Frame.checkForFinishedFlush ∈ k ∨ ∃ rpc' ∈ sd.rpcs, rpc'.phase = .notifying)
    (hflushed : sd.state = .kFlushed → s.state = .kFlushed)
    (htr : ∀ e ∈ s.trace, e ∈ sd.trace) : sd.ProgressOf (k ++ R) := by
  have keep : ∀ {x : Frame}, x ∈ c ++ R → x.isTrigger = true → x ∈ k ++ R := fun hx ht => by
    rcases List.mem_append.1 hx with hx | hx
    · simp [hc _ hx] at ht
    · exact List.mem_append_right _ hx
  refine ⟨fun h1 h2 h3 => ?_, fun h1 h2 => ?_, fun hf => ?_⟩
  · rcases hswap h1 h2 h3 with hk | hw | ⟨a1, a2, a3, a4⟩
    · exact .inl (List.mem_append_left _ hk)
    · exact .inr hw
    · exact (h.swap_pending a1 a2 a3).imp (keep · rfl) fun hw => lt_of_lt_of_le hw a4
  · rcases hcheck h1 h2 with hk | hn | ⟨a1, a2⟩
    · exact .inl (List.mem_append_left _ hk)
    · exact .inr hn
    · rcases h.check_pending a1 a2 with hm | ⟨rpc, hr, hn⟩
      · exact .inl (keep hm rfl)
      · exact (hnotify rpc hr hn).imp_left (List.mem_append_left _)
  · rcases h.callback_pending (hflushed hf) with ⟨st, hm⟩ | hm | ⟨x, hm, st, hx⟩
    · exact .inl ⟨st, htr _ hm⟩
    · exact .inr (.inl (keep hm rfl))
    · exact .inr (.inr ⟨x, keep hm (by cases x <;> simp_all [Frame.callbackStatus,
        Frame.isTrigger]), st, hx⟩)

/-! ### What each action does to it -/

/-- The critical section of `TabletLookupFinished`: every lookup starts a `FlushBuffersIfReady`,
and a failed one also a `CheckForFinishedFlush`. -/
theorem ProgressOf.lookup {op : ℕ} {r : LookupResult} (h : s.ProgressOf (c ++ R))
    (hc : ∀ x ∈ c, x.isTrigger = false) (hl : LookupEffect f op r s sd k) :
    sd.ProgressOf (k ++ R) := by
  cases hl
  case aborted ha _ => exact ProgressOf.of_state (.inr ha)
  case found =>
    exact h.quiet hc (fun _ _ _ => .inl (by simp)) (fun h1 h2 => .inr (.inr ⟨h1, h2⟩))
      (fun rpc hr hn => .inr ⟨rpc, hr, hn⟩) id (fun _ => List.mem_append_left _)
  case failed =>
    exact h.quiet hc (fun _ _ _ => .inl (by simp)) (fun _ _ => .inl (by simp))
      (fun rpc hr hn => .inr ⟨rpc, hr, hn⟩) id (fun _ => List.mem_append_left _)

/-- `CheckForFinishedFlush` finds the flush unfinished: its own obligation was not due. -/
theorem ProgressOf.checkNotFinished (h : s.ProgressOf (.checkForFinishedFlush :: R))
    (hs : s.state ≠ .kFlushing ∨ s.ops ≠ []) : s.ProgressOf ([] ++ R) := by
  refine ⟨fun h1 h2 h3 => (h.swap_pending h1 h2 h3).imp_left (mem_of_mem_cons_ne · (by simp)),
    fun h1 h2 => (hs.elim (· h1) (· h2)).elim, fun hf => (h.callback_pending hf).imp_right ?_⟩
  exact Or.imp (mem_of_mem_cons_ne · (by simp))
    fun ⟨x, hm, hx⟩ => ⟨x, mem_of_mem_cons_ne hm (by rintro rfl; obtain ⟨_, ⟨⟩⟩ := hx), hx⟩

/-- The unlocked tail of `CheckForFinishedFlush` goes on to `RunCallback`. -/
theorem ProgressOf.flushFinished (h : s.ProgressOf (.flushFinished :: R)) :
    s.ProgressOf ([.runCallback s.flushStatus] ++ R) where
  swap_pending h1 h2 h3 := (h.swap_pending h1 h2 h3).imp_left (mem_of_mem_cons_ne · (by simp))
  check_pending h1 h2 := (h.check_pending h1 h2).imp_left (mem_of_mem_cons_ne · (by simp))
  callback_pending _ := .inr (.inr ⟨_, List.mem_cons_self _ _, _, rfl⟩)

/-- The move of `RunCallback` hands the callback to its runnable. -/
theorem ProgressOf.runCallback {st : Status} {taken : Bool}
    (h : s.ProgressOf (.runCallback st :: R)) :
    s.ProgressOf ([.runCallbackTail st taken] ++ R) where
  swap_pending h1 h2 h3 := (h.swap_pending h1 h2 h3).imp_left (mem_of_mem_cons_ne · (by simp))
  check_pending h1 h2 := (h.check_pending h1 h2).imp_left (mem_of_mem_cons_ne · (by simp))
  callback_pending _ := .inr (.inr ⟨_, List.mem_cons_self _ _, _, rfl⟩)

/-- The runnable of `RunCallback` runs the callback. -/
theorem ProgressOf.runCallbackTail {st : Status}
    (h : s.ProgressOf (.runCallbackTail st true :: R)) :
    { s with flushCallback := false, trace := s.trace ++ [Event.callback st] }.ProgressOf R :=
  ⟨fun h1 h2 h3 => (h.swap_pending h1 h2 h3).imp_left (mem_of_mem_cons_ne (k := []) · (by simp)),
    fun h1 h2 => (h.check_pending h1 h2).imp_left (mem_of_mem_cons_ne (k := []) · (by simp)),
    fun _ => .inl ⟨st, List.mem_append_right _ (List.mem_singleton_self _)⟩⟩

/-- Running `FlushBuffersIfReady` leaves to the other frames the obligations it does not own;
its own it discharges, or it was not due. -/
theorem ProgressOf.without_flushBuffersIfReady (h : s.ProgressOf (.flushBuffersIfReady :: R))
    (hst : sd.state = s.state) (hops : sd.ops = s.ops) (hr : sd.rpcs = s.rpcs)
    (htr : ∀ e ∈ s.trace, e ∈ sd.trace)
    (hswap : sd.state = .kFlushing → sd.outstandingLookups = 0 → sd.opsQueue ≠ [] →
      0 < sd.waiters) : sd.ProgressOf (k ++ R) where
  swap_pending h1 h2 h3 := .inr (hswap h1 h2 h3)
  check_pending h1 h2 := by
    rw [hst] at h1; rw [hops] at h2; rw [hr]
    exact (h.check_pending h1 h2).imp_left (mem_of_mem_cons_ne · (by simp))
  callback_pending hf := by
    rw [hst] at hf
    rcases h.callback_pending hf with ⟨st, hm⟩ | hm | ⟨x, hm, hx⟩
    · exact .inl ⟨st, htr _ hm⟩
    · exact .inr (.inl (mem_of_mem_cons_ne hm (by simp)))
    · exact .inr (.inr ⟨x, mem_of_mem_cons_ne hm (by rintro rfl; obtain ⟨_, ⟨⟩⟩ := hx), hx⟩)

/-- A piece of an RPC's completion before `RemoveInFlightOpsAfterFlushing` that leaves `state_`,
`ops_`, `ops_queue_`, the lookups and the waiters alone. -/
theorem ProgressOf.setRpc {r : ℕ} {rpc rpc' : AsyncRpc} (h : s.ProgressOf ([] ++ R))
    (hr : s.rpcs[r]? = some rpc) (hn : rpc.phase ≠ .notifying) (hst : sd.state = s.state)
    (hops : sd.ops = s.ops) (hq : sd.opsQueue = s.opsQueue)
    (hol : sd.outstandingLookups = s.outstandingLookups) (hw : sd.waiters = s.waiters)
    (hrpcs : sd.rpcs = s.rpcs.set r rpc') (htr : sd.trace = s.trace) : sd.ProgressOf ([] ++ R) :=
  h.quiet (fun _ => nofun) (fun h1 h2 h3 => .inr (.inr ⟨hst ▸ h1, hol ▸ h2, hq ▸ h3, hw.ge⟩))
    (fun h1 h2 => .inr (.inr ⟨hst ▸ h1, hops ▸ h2⟩))
    (fun y hy hyn => .inr (hrpcs ▸ notify_set hr hn y hy hyn)) (fun hf => hst ▸ hf)
    (fun _ he => htr ▸ he)

/-! ### Every run -/

/-- Every action keeps the invariant. -/
theorem ProgressOf.act {a : Action} (h : s.ProgressOf (a.consumes ++ R))
    (ha : Effect f s a sd k) : sd.ProgressOf (k ++ R) := by
  have none : ∀ x ∈ ([] : List Frame), x.isTrigger = false :=
    fun _ h => absurd h (List.not_mem_nil _)
  cases ha <;> simp only [Action.consumes] at h
  case addRejected => exact h
  case add hst _ => exact ProgressOf.of_state (.inl hst)
  case setTimeout => exact h.congr rfl rfl rfl rfl rfl rfl rfl
  case flushAsync =>
    exact h.quiet none (fun _ _ _ => .inl (by simp)) (fun _ _ => .inl (by simp))
      (fun rpc hr hn => .inr ⟨rpc, hr, hn⟩) nofun (fun _ => id)
  case abort ha | transactionFailed ha => exact ProgressOf.of_state (.inr (abort_state ha))
  case lookupFinished hl =>
    exact ProgressOf.lookup (h.congr rfl rfl rfl rfl rfl rfl rfl :
      ProgressOf { s with lookups := s.lookups.erase _ } _) none hl
  case addTailFound hl => exact h.lookup (by simp [Frame.isTrigger]) hl
  case transactionReady =>
    exact h.quiet none (fun _ _ _ => .inl (by simp)) (fun h1 h2 => .inr (.inr ⟨h1, h2⟩))
      (fun rpc hr hn => .inr ⟨rpc, hr, hn⟩) id (fun _ => id)
  case rpcFinished hr hp _ | rpcRowError hr hp _ | rpcRowErrorSkipped hr hp _ |
      rpcRowErrorsDone hr hp =>
    exact h.setRpc hr (by rw [hp]; nofun) rfl rfl rfl rfl rfl rfl rfl
  case rpcFailed hr hp =>
    rw [foldl_combineErrorUnlocked]
    exact h.setRpc hr (by rw [hp]; nofun) rfl rfl rfl rfl rfl rfl rfl
  case rpcRemoved hr hp hrm =>
    obtain ⟨hlt, -⟩ := List.getElem?_eq_some_iff.1 hr
    obtain ⟨ops, rfl, -⟩ := removeInFlightOpsAfterFlushing_ok hrm
    exact h.quiet none (fun h1 h2 h3 => .inr (.inr ⟨h1, h2, h3, le_rfl⟩))
      (fun _ _ => .inr (.inl ⟨_, List.mem_set _ _ hlt _, rfl⟩))
      (fun y hy hyn => .inr (notify_set hr (by rw [hp]; nofun) y hy hyn)) id (fun _ => id)
  case rpcNotified =>
    exact h.quiet none (fun h1 h2 h3 => .inr (.inr ⟨h1, h2, h3, le_rfl⟩))
      (fun _ _ => .inl (by simp)) (fun _ _ _ => .inl (by simp)) id
      (fun _ => List.mem_append_left _)
  case addTailLookup =>
    exact (h.congr rfl rfl rfl rfl rfl rfl rfl :
      ProgressOf { s with lookups := s.lookups ++ [_] } _).quiet (k := [])
      (by simp [Frame.isTrigger]) (fun h1 h2 h3 => .inr (.inr ⟨h1, h2, h3, le_rfl⟩))
      (fun h1 h2 => .inr (.inr ⟨h1, h2⟩)) (fun rpc hr hn => .inr ⟨rpc, hr, hn⟩) id (fun _ => id)
  case checkNotFinished hs => exact h.checkNotFinished hs
  case checkFinished => exact ⟨nofun, nofun, fun _ => .inr (.inl (List.mem_cons_self _ _))⟩
  case flushFinished => exact h.flushFinished
  case runCallback => exact h.runCallback
  case runCallbackTail => exact h.runCallbackTail
  case flushNotReady hs =>
    exact h.without_flushBuffersIfReady rfl rfl rfl (fun _ => id) fun h1 h2 _ =>
      (hs.elim (· h1) (· h2)).elim
  case prepareDeferred =>
    exact h.without_flushBuffersIfReady rfl rfl rfl (fun _ => List.mem_append_left _)
      fun _ _ _ => Nat.succ_pos _
  case swap =>
    exact h.without_flushBuffersIfReady rfl rfl rfl (fun _ => List.mem_append_left _)
      fun _ _ h3 => absurd rfl h3
  case flushBuffer =>
    exact h.quiet (by simp [Frame.isTrigger])
      (fun h1 h2 h3 => .inr (.inr ⟨h1, h2, h3, le_rfl⟩)) (fun h1 h2 => .inr (.inr ⟨h1, h2⟩))
      (fun rpc hr hn => .inr ⟨rpc, List.mem_append_left _ hr, hn⟩) id (fun _ => id)

theorem Progress.step {s s' : Batcher} {l : Label} (h : s.Progress)
    (hs : s.step f l = some (.ok s')) : s'.Progress := by
  obtain ⟨a, sd, k, R, ha, heq, hp, hp', -⟩ := step_ok hs
  have h' : sd.ProgressOf s'.frames := ((h.perm hp).act ha).perm hp'.symm
  rw [Progress, heq]
  exact h'.congr rfl rfl rfl rfl rfl rfl rfl

theorem progress_reachable {allowed : Batcher → Label → Prop} (h : Reachable f allowed s) :
    s.Progress :=
  h.invariant (fun _ _ _ => ProgressOf.of_state (.inl rfl)) fun _ hs _ hstep => hs.step hstep

/-- A quiescent batcher is not flushing: the swap would be owed to a frame or to a waiter, so the
queue is empty; then every op of `ops_` would be in an RPC in flight, so `ops_` is empty; and then
the end of the flush would be owed to a frame or to an RPC still notifying. -/
theorem Quiescent.not_flushing (hq : s.Quiescent) (hc : s.Census) (hp : s.Progress) :
    s.state ≠ .kFlushing := fun hs => by
  obtain ⟨ht, hl, hw, hd⟩ := hq
  have hnf : ∀ x, x ∉ s.frames := by simp [frames, ht]
  have hpend : s.pendingOf s.frames = [] := by simp [pendingOf, frames, ht, hl]
  have hout : s.outstandingLookups = 0 := by rw [hc.outstanding_eq, hpend]; rfl
  have hq0 : s.opsQueue = [] := by
    by_contra hne
    rcases hp.swap_pending hs hout hne with hm | hw'
    · exact hnf _ hm
    · omega
  have hops : s.ops = [] := List.eq_nil_iff_forall_not_mem.2 fun x hx => by
    have hin : s.inFlightOps.count x = 0 := List.count_eq_zero.2 fun hm => by
      obtain ⟨rpc, hr, hx⟩ := List.mem_flatMap.1 hm
      simp [AsyncRpc.inFlight, hd rpc hr] at hx
    have hcen := (hc.census_at x).2.2.2.2.1 (by rw [hs]; decide)
    rw [count_censusOf, hpend, count_bufferedOf, hq0, hin] at hcen
    simp only [frames, ht, List.flatten_nil, List.flatMap_nil, List.count_nil] at hcen
    have := List.count_pos_iff.2 hx
    omega
  rcases hp.check_pending hs hops with hm | ⟨rpc, hr, hn⟩
  · exact hnf _ hm
  · have := hd rpc hr
    rw [hn] at this
    cases this

/-- **A quiescent batcher has finished.**  In every run, whatever the order of the lookups'
answers, of the transaction's answers, of the RPCs' completions and of the checks for the end
of the flush: once nothing is going on (no thread inside the batcher's code, no lookup pending,
no `TransactionReady` held by the transaction, every RPC's completion run), a batcher past
`kGatheringOps` passes the checks of `~Batcher`: `ops_` is empty, and `state_` is `kFlushed` or
`kAborted`.  Unless it was aborted, it is `kFlushed` and the flush callback has run. -/
theorem quiescent_complete (h : Reachable f anyStep s) (hq : s.Quiescent)
    (hg : s.state ≠ .kGatheringOps) :
    s.destructor = .ok () ∧
      (s.state ≠ .kAborted → s.state = .kFlushed ∧ ∃ st, Event.callback st ∈ s.trace) := by
  have hc := census_reachable h
  have hp : s.Progress := progress_reachable h
  have hnf : ∀ x, x ∉ s.frames := by simp [frames, hq.1]
  by_cases ha : s.state = .kAborted
  · -- after `Abort`, `ops_` holds only ops whose lookup is pending, and none is
    have hpend : s.pendingOf s.frames = [] := by simp [pendingOf, frames, hq.1, hq.2.1]
    have hops : s.ops = [] := List.eq_nil_iff_forall_not_mem.2 fun x hx => by
      have := (hc.census_at x).2.2.2.2.2 ha
      rw [hpend, List.count_nil] at this
      have := List.count_pos_iff.2 hx
      omega
    exact ⟨destructor_ok.2 ⟨hops, .inr ha⟩, fun h' => absurd ha h'⟩
  have hfl : s.state = .kFlushed := by
    rcases hs : s.state
    · exact absurd hs hg
    · exact absurd hs (hq.not_flushing hc hp)
    · rfl
    · exact absurd hs ha
  refine ⟨destructor_ok.2 ⟨(outcome_reachable h).flushed_empty hfl, .inl hfl⟩, fun _ => ⟨hfl, ?_⟩⟩
  rcases hp.callback_pending hfl with hcb | hm | ⟨_, hm, -⟩
  · exact hcb
  · exact absurd hm (hnf _)
  · exact absurd hm (hnf _)

/-- Two writes: one sent in an RPC that completes, one whose lookup fails.  Once every thread
has run out, the batcher is flushed, `ops_` is empty and the callback has run. -/
theorem quiescent_complete_failed_lookup :
    ∃ s : Batcher, Reachable ⟨false, false, 1⟩ anyStep s ∧ s.Quiescent ∧
      s.nextOpSequenceNumber = 2 ∧ s.rpcs.length = 1 ∧ s.errors ≠ [] ∧
      s.state ≠ .kGatheringOps ∧ s.destructor = .ok () ∧
      (s.state ≠ .kAborted → s.state = .kFlushed ∧ ∃ st, Event.callback st ∈ s.trace) := by
  have hrun : (Batcher.init false false false).run ⟨false, false, 1⟩
      [.add ⟨.qlWrite, false, .strong, false, 7, .ok "k", false, none⟩,
        .add ⟨.qlWrite, false, .strong, false, 0, .ok "k", false, none⟩, .flushAsync 0,
        .run 0 false, .run 0 false, .lookupFinished 1 (.error ⟨.kIOError, "a"⟩), .run 1 false,
        .run 2 false, .rpcFinished 0 Status.OK [], .rpcStep 0, .rpcStep 0, .rpcStep 0,
        .run 0 false, .run 2 false, .run 2 false, .run 2 false, .run 0 false,
        .run 0 false, .run 0 false, .run 0 false] = some (.ok _) := rfl
  have hr := Reachable.run (.init false false false) (fun _ _ _ => trivial) hrun
  exact ⟨_, hr, by decide, rfl, rfl, by decide, by decide,
    quiescent_complete hr (by decide) (by decide)⟩

end Batcher

end ClientBatcher
