import ClientBatcher.Lifecycle

/-!
# Where every op is

An admitted op is, at any time, in one of a few places: its lookup is still pending (an `Add`
about to start it, or the meta cache yet to call back), it waits in `ops_queue_`, it is in the
local list of a `FlushBuffersIfReady` call between its swap and its `FlushBuffer` call, it is in
the op list of an RPC whose completion has not yet run `RemoveInFlightOpsAfterFlushing`, or it is
finished.  The census (`Batcher.census`) lists the ops of the first four places.

`CensusOf` is the invariant of every run, whatever the user, the meta cache, the transaction and
the transport do and in whatever order:

* no op is in two places, or twice in one, and every op anywhere is admitted;
* `outstanding_lookups_` counts the pending lookups;
* a pending op is in `kLookingUpTablet`, a queued, local or dispatched op in
  `kBufferedToTabletServer`;
* until `Abort`, `ops_` holds exactly the ops of the census; after it, exactly the pending ones.

`census_noAbort` : in a run without `Abort`, every unfinished admitted op is in exactly one
place, every other op in none, `ops_` is the set of unfinished admitted ops, and
`outstanding_lookups_` is the number of pending lookups.
-/

namespace ClientBatcher

/-- The op whose lookup a frame will start. -/
@[simp] def Frame.lookupOps : Frame → List ℕ
  | .addTail op => [op]
  | _ => []

/-- The ops of the local list of `FlushBuffersIfReady` that a frame still holds. -/
@[simp] def Frame.localOps : Frame → List ℕ
  | .flushBuffer c => c.ops
  | _ => []

namespace Batcher

/-- The ops whose lookup is pending, when the threads hold the frames `fr`. -/
def pendingOf (s : Batcher) (fr : List Frame) : List ℕ := fr.flatMap Frame.lookupOps ++ s.lookups

/-- The ops queued, or in the local list of a `FlushBuffersIfReady` call. -/
def bufferedOf (s : Batcher) (fr : List Frame) : List ℕ := s.opsQueue ++ fr.flatMap Frame.localOps

/-- The ops of the RPCs whose ops are still in `ops_`. -/
def inFlightOps (s : Batcher) : List ℕ := s.rpcs.flatMap fun r => if r.inFlight then r.ops else []

/-- The ops of every RPC created. -/
def dispatched (s : Batcher) : List ℕ := s.rpcs.flatMap (·.ops)

/-- The ops pending, queued, local or in an RPC in flight. -/
def censusOf (s : Batcher) (fr : List Frame) : List ℕ :=
  s.pendingOf fr ++ s.bufferedOf fr ++ s.inFlightOps

/-- The ops pending, queued, local or in any RPC. -/
def placesOf (s : Batcher) (fr : List Frame) : List ℕ :=
  s.pendingOf fr ++ s.bufferedOf fr ++ s.dispatched

/-- The pending lookups. -/
def pendingLookups (s : Batcher) : List ℕ := s.pendingOf s.frames

/-- The census of the ops. -/
def census (s : Batcher) : List ℕ := s.censusOf s.frames

/-- What the invariant says of the op `x`, for the batcher's fields `s` and the frames `fr` of
its threads: it is in at most one place and only if admitted, in `kLookingUpTablet` if pending
and in `kBufferedToTabletServer` if queued, local or dispatched, and in `ops_` exactly when it is
in the census (before `Abort`) or pending (after). -/
def CensusAt (s : Batcher) (fr : List Frame) (x : ℕ) : Prop :=
  (s.placesOf fr).count x ≤ 1 ∧
  (s.nextOpSequenceNumber ≤ x → (s.placesOf fr).count x = 0) ∧
  ((s.heap x).state ≠ .kLookingUpTablet → (s.pendingOf fr).count x = 0) ∧
  ((s.heap x).state ≠ .kBufferedToTabletServer →
    (s.bufferedOf fr).count x + s.dispatched.count x = 0) ∧
  (s.state ≠ .kAborted → (s.censusOf fr).count x = s.ops.count x) ∧
  (s.state = .kAborted → (s.pendingOf fr).count x = s.ops.count x)

/-- The invariant of every run, for the batcher's fields `s` and the frames `fr` of its
threads. -/
structure CensusOf (s : Batcher) (fr : List Frame) : Prop where
  census_at : ∀ x, s.CensusAt fr x
  outstanding_eq : s.outstandingLookups = (s.pendingOf fr).length

/-- The invariant of every run. -/
def Census (s : Batcher) : Prop := s.CensusOf s.frames

/-! ### Counting the places -/

@[simp] theorem count_pendingOf (s : Batcher) (fr : List Frame) (x : ℕ) :
    (s.pendingOf fr).count x = (fr.flatMap Frame.lookupOps).count x + s.lookups.count x := by
  simp [pendingOf]

@[simp] theorem count_bufferedOf (s : Batcher) (fr : List Frame) (x : ℕ) :
    (s.bufferedOf fr).count x = s.opsQueue.count x + (fr.flatMap Frame.localOps).count x := by
  simp [bufferedOf]

@[simp] theorem pendingOf_addTail (s : Batcher) (op : ℕ) (fr : List Frame) :
    s.pendingOf (.addTail op :: fr) = op :: s.pendingOf fr := by
  simp [pendingOf]

theorem count_placesOf (s : Batcher) (fr : List Frame) (x : ℕ) :
    (s.placesOf fr).count x =
      (s.pendingOf fr).count x + ((s.bufferedOf fr).count x + s.dispatched.count x) := by
  simp only [placesOf, List.count_append, Nat.add_assoc]

theorem count_censusOf (s : Batcher) (fr : List Frame) (x : ℕ) :
    (s.censusOf fr).count x =
      (s.pendingOf fr).count x + ((s.bufferedOf fr).count x + s.inFlightOps.count x) := by
  simp only [censusOf, List.count_append, Nat.add_assoc]

theorem count_inFlightOps_le (s : Batcher) (x : ℕ) :
    s.inFlightOps.count x ≤ s.dispatched.count x := by
  unfold inFlightOps dispatched
  induction s.rpcs with
  | nil => simp
  | cons r rs ih => simp only [List.flatMap_cons, List.count_append]; split <;> simp <;> omega

theorem count_flatMap_set {l : List AsyncRpc} {r : ℕ} {a b : AsyncRpc} (hb : l[r]? = some b)
    (g : AsyncRpc → List ℕ) (x : ℕ) :
    ((l.set r a).flatMap g).count x + (g b).count x = (l.flatMap g).count x + (g a).count x := by
  obtain ⟨hr, rfl⟩ := List.getElem?_eq_some_iff.1 hb
  rw [List.set_eq_take_append_cons_drop, if_pos hr]
  conv_rhs => rw [← List.take_append_drop r l, List.drop_eq_getElem_cons hr]
  simp only [List.flatMap_append, List.flatMap_cons, List.count_append]
  omega

/-- Replacing an RPC by one with the same ops, in flight as much, moves no op. -/
theorem count_setRpc {r : ℕ} {rpc rpc' : AsyncRpc} (s : Batcher) (hr : s.rpcs[r]? = some rpc)
    (hops : rpc'.ops = rpc.ops) (hin : rpc'.inFlight = rpc.inFlight) (x : ℕ) :
    (s.setRpc r rpc').dispatched.count x = s.dispatched.count x ∧
      (s.setRpc r rpc').inFlightOps.count x = s.inFlightOps.count x := by
  have hd := count_flatMap_set (a := rpc') hr (·.ops) x
  have hi := count_flatMap_set (a := rpc') hr (fun r => if r.inFlight then r.ops else []) x
  simp only [hops, hin] at hd hi
  exact ⟨by simpa [dispatched] using hd, by simpa [inFlightOps] using hi⟩

/-! ### The invariant only sees a few counts -/

variable {s sd : Batcher} {fr fr' R k : List Frame} {x : ℕ}

/-- The invariant at `x` reads only the count of pending copies of `x`, of buffered and
dispatched ones, of buffered and in-flight ones against the count in `ops_`, and the op's state.
An op can leave the RPCs in flight and `ops_` together, but only before `Abort`. -/
theorem CensusAt.congr (h : s.CensusAt fr x)
    (hp : (sd.pendingOf fr').count x = (s.pendingOf fr).count x)
    (hd : (sd.bufferedOf fr').count x + sd.dispatched.count x =
      (s.bufferedOf fr).count x + s.dispatched.count x)
    (hi : (sd.bufferedOf fr').count x + sd.inFlightOps.count x + s.ops.count x =
      (s.bufferedOf fr).count x + s.inFlightOps.count x + sd.ops.count x)
    (ho : s.state = .kAborted → sd.ops.count x = s.ops.count x)
    (hn : s.nextOpSequenceNumber ≤ sd.nextOpSequenceNumber)
    (hh : (sd.heap x).state = (s.heap x).state)
    (ha : sd.state = .kAborted ↔ s.state = .kAborted) : sd.CensusAt fr' x := by
  simp only [CensusAt, count_placesOf, count_censusOf, hp, hd, hh, ne_eq, ha] at h ⊢
  obtain ⟨h1, h2, h3, h4, h5, h6⟩ := h
  exact ⟨h1, fun hle => h2 (hn.trans hle), h3, h4, fun ha' => by have := h5 ha'; omega,
    fun ha' => by rw [ho ha']; exact h6 ha'⟩

/-- An op in no place and not in `ops_` satisfies the invariant. -/
theorem censusAt_of_absent (hp : (s.pendingOf fr).count x = 0)
    (hb : (s.bufferedOf fr).count x = 0) (hd : s.dispatched.count x = 0)
    (ho : s.ops.count x = 0) : s.CensusAt fr x := by
  have hi : s.inFlightOps.count x = 0 := Nat.eq_zero_of_le_zero (hd ▸ count_inFlightOps_le s x)
  simp [CensusAt, count_placesOf, count_censusOf, hp, hb, hd, hi, ho]

/-- A pending op is in no other place, is looking up its tablet, and is in `ops_`. -/
theorem CensusAt.of_pending (h : s.CensusAt fr x) (hp : 0 < (s.pendingOf fr).count x) :
    (s.pendingOf fr).count x = 1 ∧ (s.bufferedOf fr).count x = 0 ∧ s.dispatched.count x = 0 ∧
      s.inFlightOps.count x = 0 ∧ x < s.nextOpSequenceNumber ∧
      (s.heap x).state = .kLookingUpTablet ∧ s.ops.count x = 1 := by
  obtain ⟨h1, h2, h3, -, h5, h6⟩ := h
  have hi := count_inFlightOps_le s x
  rw [count_placesOf] at h1 h2
  rw [count_censusOf] at h5
  have hlt : x < s.nextOpSequenceNumber := Nat.lt_of_not_le fun hle => by have := h2 hle; omega
  have hst : (s.heap x).state = .kLookingUpTablet := not_not.1 fun hs => by have := h3 hs; omega
  have ho : s.ops.count x = 1 := by
    by_cases ha : s.state = .kAborted
    · have := h6 ha; omega
    · have := h5 ha; omega
  exact ⟨by omega, by omega, by omega, by omega, hlt, hst, ho⟩

/-- A buffered or dispatched op is in no other place and is buffered to a tablet server. -/
theorem CensusAt.of_buffered (h : s.CensusAt fr x)
    (hb : 0 < (s.bufferedOf fr).count x + s.dispatched.count x) :
    (s.pendingOf fr).count x = 0 ∧ (s.bufferedOf fr).count x + s.dispatched.count x = 1 ∧
      (s.heap x).state = .kBufferedToTabletServer := by
  obtain ⟨h1, -, h3, h4, -⟩ := h
  rw [count_placesOf] at h1
  have hst : (s.heap x).state = .kBufferedToTabletServer := not_not.1 fun hs => by
    have := h4 hs; omega
  have := h3 (by rw [hst]; decide)
  exact ⟨this, by omega, hst⟩

theorem CensusOf.perm (h : s.CensusOf fr) (hp : fr.Perm fr') : s.CensusOf fr' := by
  have lk := (hp.flatMap_right Frame.lookupOps).count_eq
  have lo := (hp.flatMap_right Frame.localOps).count_eq
  refine ⟨fun x => (h.census_at x).congr ?_ ?_ ?_ (fun _ => rfl) le_rfl rfl Iff.rfl, ?_⟩
  · simp [lk]
  · simp [lo]
  · simp [lo]
  · simp [h.outstanding_eq, pendingOf, (hp.flatMap_right Frame.lookupOps).length_eq]

/-- An action that moves no op keeps the invariant. -/
theorem CensusOf.congr {c : List Frame} (h : s.CensusOf (c ++ R))
    (hc : c.flatMap Frame.lookupOps = [] ∧ c.flatMap Frame.localOps = [])
    (hk : k.flatMap Frame.lookupOps = [] ∧ k.flatMap Frame.localOps = [])
    (hops : sd.ops = s.ops) (hq : sd.opsQueue = s.opsQueue) (hlk : sd.lookups = s.lookups)
    (hdis : ∀ x, sd.dispatched.count x = s.dispatched.count x ∧
      sd.inFlightOps.count x = s.inFlightOps.count x)
    (hnext : sd.nextOpSequenceNumber = s.nextOpSequenceNumber)
    (hout : sd.outstandingLookups = s.outstandingLookups)
    (hheap : ∀ x, (sd.heap x).state = (s.heap x).state)
    (hst : sd.state = .kAborted ↔ s.state = .kAborted) : sd.CensusOf (k ++ R) := by
  refine ⟨fun x => (h.census_at x).congr ?_ ?_ ?_ (fun _ => by rw [hops]) hnext.ge (hheap x) hst,
    by simp [hout, h.outstanding_eq, pendingOf, hc.1, hk.1, hlk]⟩ <;>
  simp [hc.1, hc.2, hk.1, hk.2, hq, hlk, hops, (hdis x).1, (hdis x).2]

/-! ### The actions that move an op -/

variable {f : Flags}

/-- `Add`: the new op, numbered `nextOpSequenceNumber`, is in no place yet; it starts pending. -/
theorem CensusOf.insertOp {op : InFlightOp} (h : s.CensusOf R) (hst : s.state = .kGatheringOps)
    (hop : op.state = .kLookingUpTablet) :
    (s.insertOp op).CensusOf (.addTail s.nextOpSequenceNumber :: R) := by
  refine ⟨fun x => ?_, by simp [pendingOf, h.outstanding_eq]⟩
  by_cases hxn : x = s.nextOpSequenceNumber
  · subst hxn
    obtain ⟨h1, h2, -, -, h5, -⟩ := h.census_at s.nextOpSequenceNumber
    have h0 := h2 le_rfl
    have hi := count_inFlightOps_le s s.nextOpSequenceNumber
    rw [count_placesOf] at h0
    rw [count_censusOf] at h5
    have := h5 (by rw [hst]; decide)
    simp only [CensusAt, count_placesOf, count_censusOf, count_pendingOf, count_bufferedOf] at *
    simp [dispatched, inFlightOps, hst, hop] at *
    omega
  · exact (h.census_at x).congr (by simp [List.count_cons, Ne.symm hxn]) (by simp [dispatched])
      (by simp [inFlightOps, List.count_cons, Ne.symm hxn])
      (fun _ => by simp [List.count_cons, Ne.symm hxn]) (Nat.le_succ _)
      (by simp [Function.update_apply, hxn]) (by simp)

/-- The rest of `Add` without a tablet: the pending lookup passes from the thread to the meta
cache. -/
theorem CensusOf.register {op : ℕ} (h : s.CensusOf (.addTail op :: R)) :
    { s with lookups := s.lookups ++ [op] }.CensusOf R := by
  refine ⟨fun x => (h.census_at x).congr ?_ (by simp [dispatched]) (by simp [inFlightOps])
    (fun _ => rfl) le_rfl rfl Iff.rfl, by simp [pendingOf, h.outstanding_eq]; omega⟩
  simp [List.count_cons]; omega

/-- A lookup the meta cache answers goes back to a thread, which runs `TabletLookupFinished`. -/
theorem CensusOf.unregister {op : ℕ} (h : s.CensusOf R) (hop : op ∈ s.lookups) :
    { s with lookups := s.lookups.erase op }.CensusOf (.addTail op :: R) := by
  refine ⟨fun x => (h.census_at x).congr ?_ (by simp [dispatched]) (by simp [inFlightOps])
    (fun _ => rfl) le_rfl rfl Iff.rfl, ?_⟩
  · have := count_erase_add hop x
    simp only [pendingOf_addTail, count_pendingOf, List.count_cons, beq_iff_eq] at this ⊢
    split_ifs at this ⊢ <;> omega
  · have := List.length_pos_of_mem hop
    simp [pendingOf, h.outstanding_eq, List.length_erase_of_mem hop]; omega

/-- The op of a `TabletLookupFinished` that drops it is pending, so it is in no other place and in
`ops_` once; its lookup ends, and `--outstanding_lookups_` keeps the count. -/
theorem CensusOf.outstanding_lookupFinished {op : ℕ} (h : s.CensusOf (.addTail op :: R))
    (hk : k.flatMap Frame.lookupOps = []) (hl : sd.lookups = s.lookups)
    (ho : sd.outstandingLookups = s.outstandingLookups - 1) :
    sd.outstandingLookups = (sd.pendingOf (k ++ R)).length := by
  rw [ho, h.outstanding_eq]; simp [pendingOf, hk, hl]

/-- A failed lookup, or one that finishes after `Abort`: the op leaves `ops_` and every place. -/
theorem CensusOf.dropLookup {op : ℕ} {r : LookupResult} {st : Status}
    (h : s.CensusOf (.addTail op :: R))
    (hk : k.flatMap Frame.lookupOps = [] ∧ k.flatMap Frame.localOps = []) :
    (combineErrorUnlocked f op st { s.recordLookup op r with ops := s.ops.erase op }).CensusOf
      (k ++ R) := by
  obtain ⟨hp1, hb0, hd0, -, -, -, ho1⟩ := (h.census_at op).of_pending (by simp)
  refine ⟨fun x => ?_, h.outstanding_lookupFinished hk.1 (by simp) (by simp)⟩
  by_cases hx : x = op
  · subst hx
    simp [List.count_cons] at hp1 hb0
    exact censusAt_of_absent (by simp [hk.1, hp1]) (by simp [hk.2, hb0]) (by simpa [dispatched])
      (by simp [ho1])
  · exact (h.census_at x).congr (by simp [hk.1, List.count_cons, Ne.symm hx])
      (by simp [hk.2, dispatched]) (by simp [hk.2, inFlightOps, List.count_erase_of_ne hx])
      (fun _ => by simp [List.count_erase_of_ne hx]) le_rfl (by simp [-recordLookup_heap]) (by simp)

/-- `TabletLookupFinished(op, result)`: the op leaves the pending lookups for `ops_queue_`, or,
when its lookup failed or the batch was aborted, leaves `ops_` and every place. -/
theorem CensusOf.lookup {op : ℕ} {r : LookupResult} (h : s.CensusOf (.addTail op :: R))
    (hl : LookupEffect f op r s sd k) : sd.CensusOf (k ++ R) := by
  cases hl with
  | aborted => exact h.dropLookup (by simp)
  | failed => exact h.dropLookup (by simp)
  | found t hna =>
    obtain ⟨hp1, hb0, hd0, hi0, hlt, -, ho1⟩ := (h.census_at op).of_pending (by simp)
    refine ⟨fun x => ?_, h.outstanding_lookupFinished (by simp) (by simp) (by simp)⟩
    by_cases hx : x = op
    · subst hx
      simp [List.count_cons] at hp1 hb0
      simp only [dispatched, inFlightOps] at hd0 hi0
      simp [CensusAt, count_placesOf, count_censusOf, hp1, hb0, hd0, hi0, ho1, hna,
        Nat.not_le.2 hlt, dispatched, inFlightOps, List.count_cons]
    · exact (h.census_at x).congr (by simp [List.count_cons, Ne.symm hx])
        (by simp [dispatched, List.count_cons, Ne.symm hx])
        (by simp [inFlightOps, List.count_cons, Ne.symm hx]) (fun _ => rfl) le_rfl
        (by simp [Function.update_apply, hx, -recordLookup_heap]) (by simp)

/-- `Abort`: the buffered and dispatched ops leave `ops_`; the pending ones stay there. -/
theorem CensusOf.abort {st : Status} (h : s.CensusOf R) (ha : s.abort f st = .ok (sd, k)) :
    sd.CensusOf (k ++ R) := by
  obtain ⟨ops, errors, ce, he, hsd, hops, hk⟩ := abort_ok ha
  replace hk : k.flatMap Frame.lookupOps = [] ∧ k.flatMap Frame.localOps = [] := by
    rw [hk]; split <;> simp
  refine ⟨fun x => ?_, by simp [hsd, pendingOf, hk.1, h.outstanding_eq]⟩
  obtain ⟨h1, h2, h3, h4, h5, h6⟩ := h.census_at x
  have hi := count_inFlightOps_le s x
  simp only [CensusAt, count_placesOf, count_censusOf] at h1 h2 h5 ⊢
  have ep : (sd.pendingOf (k ++ R)).count x = (s.pendingOf R).count x := by simp [hsd, hk.1]
  have eb : (sd.bufferedOf (k ++ R)).count x = (s.bufferedOf R).count x := by simp [hsd, hk.2]
  have ed : sd.dispatched = s.dispatched := by rw [hsd]; rfl
  have ei : sd.inFlightOps = s.inFlightOps := by rw [hsd]; rfl
  have hfields : sd.state = .kAborted ∧ sd.nextOpSequenceNumber = s.nextOpSequenceNumber ∧
      sd.heap = s.heap ∧ sd.ops = ops := by simp [hsd]
  simp only [ep, eb, ed, ei, hfields]
  refine ⟨h1, h2, h3, h4, fun hne => absurd rfl hne, fun _ => ?_⟩
  rw [hops x]
  split_ifs with hb
  · exact h3 (by rw [hb]; decide)
  · have := h4 hb
    by_cases ha : s.state = .kAborted
    · exact h6 ha
    · have := h5 ha; omega


theorem flatMap_map_flushBuffer (cs : List FlushBufferCall) :
    (cs.map Frame.flushBuffer).flatMap Frame.lookupOps = [] ∧
      (cs.map Frame.flushBuffer).flatMap Frame.localOps = cs.flatMap (·.ops) := by
  induction cs <;> simp [*]

/-- The swap of `FlushBuffersIfReady` moves the whole of `ops_queue_` to its local list, whose
ranges are its `FlushBuffer` calls. -/
theorem CensusOf.swap (h : s.CensusOf (.flushBuffersIfReady :: R)) (tr : List Event) :
    { s with opsQueue := [], trace := tr }.CensusOf ((planFlush f s.heap
      (s.forceConsistentRead || s.transaction) s.allowLocalCallsInCurrThread s.opsQueue).map
        Frame.flushBuffer ++ R) := by
  obtain ⟨hk1, hk2⟩ := flatMap_map_flushBuffer (planFlush f s.heap
    (s.forceConsistentRead || s.transaction) s.allowLocalCallsInCurrThread s.opsQueue)
  have hq : ∀ x, ((planFlush f s.heap (s.forceConsistentRead || s.transaction)
      s.allowLocalCallsInCurrThread s.opsQueue).flatMap (·.ops)).count x = s.opsQueue.count x :=
    fun x => by rw [planFlush_ops]; exact (sortOps_perm _).count_eq x
  refine ⟨fun x => (h.census_at x).congr (by simp [hk1]) ?_ ?_ (fun _ => rfl) le_rfl rfl Iff.rfl,
    by simp [pendingOf, hk1, h.outstanding_eq]⟩ <;>
  simp [hk2, hq, dispatched, inFlightOps]

/-- `FlushBuffer`: the call's range moves from the local list to the new RPC. -/
theorem CensusOf.flushBuffer {c : FlushBufferCall} (h : s.CensusOf (.flushBuffer c :: R))
    (rpc : AsyncRpc) (hops : rpc.ops = c.ops) (hin : rpc.inFlight = true) :
    { s with rpcs := s.rpcs ++ [rpc] }.CensusOf R := by
  refine ⟨fun x => (h.census_at x).congr (by simp) ?_ ?_ (fun _ => rfl) le_rfl rfl Iff.rfl,
    by simpa [pendingOf] using h.outstanding_eq⟩
  · simp [dispatched, hops]; omega
  · simp [inFlightOps, hin, hops]; omega

/-- A piece of an RPC's completion that records errors or advances its phase within flight. -/
theorem CensusOf.setRpc {r : ℕ} {rpc rpc' : AsyncRpc} {errors : List (ℕ × Status)}
    {ce : Status} {he : Bool} {tr : List Event} (h : s.CensusOf R) (hr : s.rpcs[r]? = some rpc)
    (hops : rpc'.ops = rpc.ops) (hin : rpc'.inFlight = rpc.inFlight)
    (hk : k.flatMap Frame.lookupOps = [] ∧ k.flatMap Frame.localOps = []) :
    ({ s with errors := errors, combinedError := ce, hadErrors := he, trace := tr }.setRpc r
      rpc').CensusOf (k ++ R) :=
  CensusOf.congr (c := []) h (by simp) hk rfl rfl rfl (count_setRpc s hr hops hin) rfl rfl
    (fun _ => rfl) Iff.rfl

/-- `RemoveInFlightOpsAfterFlushing`: the RPC's ops leave `ops_` as the RPC leaves flight. -/
theorem CensusOf.removing {r : ℕ} {rpc : AsyncRpc} {s₁ : Batcher} (h : s.CensusOf R)
    (hr : s.rpcs[r]? = some rpc) (hp : rpc.phase = .removing)
    (hrm : removeInFlightOpsAfterFlushing rpc.ops s = .ok s₁) :
    (s₁.setRpc r { rpc with phase := .notifying }).CensusOf R := by
  obtain ⟨ops, rfl, hops⟩ := removeInFlightOpsAfterFlushing_ok hrm
  refine ⟨fun x => ?_, by simpa [pendingOf] using h.outstanding_eq⟩
  have hin : rpc.inFlight = true := by simp [AsyncRpc.inFlight, hp]
  have hin' : ({ rpc with phase := .notifying } : AsyncRpc).inFlight = false := rfl
  have hd := count_flatMap_set (a := { rpc with phase := .notifying }) hr (·.ops) x
  have hi := count_flatMap_set (a := { rpc with phase := .notifying }) hr
    (fun r => if r.inFlight then r.ops else []) x
  have hle := count_flatMap_set (a := { rpc with ops := [] }) hr (·.ops) x
  simp only [hin, hin', if_true, Bool.false_eq_true, if_false, List.count_nil] at hd hi hle
  refine (h.census_at x).congr (by simp) ?_ ?_ (fun ha => ?_) le_rfl rfl Iff.rfl
  · simp [dispatched]; omega
  · have := hops x; simp [inFlightOps]; omega
  · have := hops x
    by_contra hne
    simp only [setRpc_ops] at hne
    have hpos : 0 < (s.bufferedOf R).count x + s.dispatched.count x := by
      simp only [dispatched]; omega
    have := (h.census_at x).of_buffered hpos
    have := (h.census_at x).2.2.2.2.2 ha
    omega

/-! ### Every run -/

/-- Every action keeps the invariant. -/
theorem CensusOf.act {a : Action} (h : s.CensusOf (a.consumes ++ R)) (ha : Effect f s a sd k) :
    sd.CensusOf (k ++ R) := by
  have none : ([] : List Frame).flatMap Frame.lookupOps = [] ∧
      ([] : List Frame).flatMap Frame.localOps = [] := ⟨rfl, rfl⟩
  have sent : ∀ {rpc : AsyncRpc}, rpc.phase = .sent → ∀ st errs,
      (rpc.respond st errs).inFlight = rpc.inFlight := fun hp st errs => by
    unfold AsyncRpc.respond; split_ifs <;> simp [AsyncRpc.inFlight, hp]
  cases ha <;> simp only [Action.consumes] at h
  case addRejected => exact h
  case add hst _ => exact h.insertOp hst rfl
  case flushAsync hs =>
    exact h.congr none (by simp) rfl rfl rfl (fun _ => ⟨rfl, rfl⟩) rfl rfl (fun _ => rfl)
      (by simp [hs])
  case checkFinished hs _ =>
    exact h.congr (by simp) (by simp) rfl rfl rfl (fun _ => ⟨rfl, rfl⟩) rfl rfl (fun _ => rfl)
      (by simp [hs])
  case abort ha => exact h.abort ha
  case transactionFailed ha =>
    exact CensusOf.abort (s := { s with waiters := s.waiters - 1 })
      ⟨h.census_at, h.outstanding_eq⟩ ha
  case lookupFinished hop hl => exact (h.unregister hop).lookup hl
  case addTailFound hl => exact h.lookup hl
  case addTailLookup => exact h.register
  case rpcFinished hr hp _ => exact h.setRpc hr rfl (sent hp _ _) none
  case rpcFailed hr hp =>
    rw [foldl_combineErrorUnlocked]
    exact h.setRpc hr rfl (by simp [AsyncRpc.inFlight, hp]) none
  case rpcRowError hr hp _ => exact h.setRpc hr rfl (by simp [AsyncRpc.inFlight, hp]) none
  case rpcRowErrorSkipped hr hp _ =>
    exact h.setRpc (s := s) hr rfl (by simp [AsyncRpc.inFlight, hp]) none
  case rpcRowErrorsDone hr hp =>
    exact h.setRpc (s := s) hr rfl (by simp [AsyncRpc.inFlight, hp]) none
  case rpcRemoved hr hp hrm => exact h.removing hr hp hrm
  case rpcNotified hr hp => exact h.setRpc hr rfl (by simp [AsyncRpc.inFlight, hp]) (by simp)
  case swap => exact h.swap _
  case flushBuffer => exact h.flushBuffer _ rfl rfl
  all_goals
    exact h.congr (by simp) (by simp) rfl rfl rfl (fun _ => ⟨rfl, rfl⟩) rfl rfl (fun _ => rfl)
      Iff.rfl

/-- Every step keeps the invariant. -/
theorem Census.step {s s' : Batcher} {l : Label} (h : s.Census) (hs : s.step f l = some (.ok s')) :
    s'.Census := by
  obtain ⟨a, sd, k, R, ha, heq, hp, hp', -⟩ := step_ok hs
  have h' : sd.CensusOf s'.frames := ((h.perm hp).act ha).perm hp'.symm
  rw [Census, heq]
  exact ⟨h'.census_at, h'.outstanding_eq⟩

/-- The constructed batcher has no op anywhere. -/
theorem census_init (transaction forceConsistentRead allowLocalCallsInCurrThread : Bool) :
    (Batcher.init transaction forceConsistentRead allowLocalCallsInCurrThread).Census :=
  ⟨fun _ => censusAt_of_absent rfl rfl rfl rfl, rfl⟩

/-- **The census holds in every run.**  Whatever the user, the meta cache, the transaction and
the transport do, in whatever order, `CensusOf` holds of every reachable state. -/
theorem census_reachable {allowed : Batcher → Label → Prop} (h : Reachable f allowed s) :
    s.Census :=
  h.invariant census_init fun _ hs _ hstep => hs.step hstep

/-- **Every op is in one place.**  In every run without `Abort`, whatever the order of the
lookups' answers, the flush triggers, the transaction's answers and the RPCs' completions: every
admitted op is pending, queued, in the local list of one `FlushBuffersIfReady` call or in the op
list of one RPC whose completion has not removed it, or finished; no op that was never admitted
is anywhere; `ops_` holds each unfinished admitted op once and nothing else; and
`outstanding_lookups_` is the number of pending lookups. -/
theorem census_noAbort (h : Reachable f noAbort s) :
    (∀ x, s.census.count x ≤ 1 ∧ (s.nextOpSequenceNumber ≤ x → s.census.count x = 0) ∧
      s.ops.count x = s.census.count x) ∧
    s.outstandingLookups = s.pendingLookups.length := by
  have hc := census_reachable h
  refine ⟨fun x => ?_, hc.outstanding_eq⟩
  obtain ⟨h1, h2, -, -, h5, -⟩ := hc.census_at x
  have hi := count_inFlightOps_le s x
  have h5 := h5 (state_ne_aborted h)
  rw [count_placesOf] at h1 h2
  rw [count_censusOf] at h5
  rw [census, count_censusOf]
  exact ⟨by omega, fun hle => by have := h2 hle; omega, h5.symm⟩

/-- A write, a consistent-prefix read whose tablet the meta cache looks up, and a leader read,
on two tablets: once the batch is swapped out, one RPC is sent and two calls are pending. -/
theorem census_noAbort_mixed_batch :
    ∃ s : Batcher, Reachable ⟨false, false, 1⟩ noAbort s ∧ s.nextOpSequenceNumber = 3 ∧
      s.rpcs.length = 1 ∧
      (∀ x, s.census.count x ≤ 1 ∧ (s.nextOpSequenceNumber ≤ x → s.census.count x = 0) ∧
        s.ops.count x = s.census.count x) ∧
      s.outstandingLookups = s.pendingLookups.length := by
  have hrun : (Batcher.init false false false).run ⟨false, false, 1⟩
      [.add ⟨.qlWrite, false, .strong, false, 2, .ok "k", false, none⟩,
        .add ⟨.qlRead, true, .consistentPrefix, false, 0, .ok "k", false, none⟩,
        .add ⟨.qlRead, true, .strong, false, 1, .ok "k", false, none⟩, .flushAsync 0,
        .run 0 false, .run 0 false, .run 0 false, .lookupFinished 1 (.ok 1), .run 1 false,
        .run 3 false] = some (.ok _) := rfl
  have hr : Reachable ⟨false, false, 1⟩ noAbort _ :=
    Reachable.run (.init false false false) (by simp [noAbort, Label.aborts]) hrun
  exact ⟨_, hr, rfl, rfl, census_noAbort hr⟩

/-- **The places of the ops, `Abort` included.**  In every run, also one with `Abort`:
an admitted op is in at most one place (its pending lookup, `ops_queue_`, the local list of
a `FlushBuffersIfReady` call, or the op list of an RPC, in flight or not) and an op never
admitted in none; once the batch is aborted `ops_` holds exactly the ops whose lookup is
pending; and `outstanding_lookups_` is the number of pending lookups, so it never drops
below zero. -/
theorem census_with_abort {allowed : Batcher → Label → Prop} (h : Reachable f allowed s) :
    (∀ x, (s.placesOf s.frames).count x ≤ 1 ∧
      (s.nextOpSequenceNumber ≤ x → (s.placesOf s.frames).count x = 0)) ∧
    (s.state = .kAborted → s.ops.Perm s.pendingLookups) ∧
    s.outstandingLookups = s.pendingLookups.length := by
  have hc := census_reachable h
  exact ⟨fun x => ⟨(hc.census_at x).1, (hc.census_at x).2.1⟩,
    fun ha => List.perm_iff_count.2 fun x => ((hc.census_at x).2.2.2.2.2 ha).symm,
    hc.outstanding_eq⟩

/-- `Abort` while a lookup is pending: the op stays in `ops_` until its lookup answers. -/
theorem census_with_abort_pending_lookup :
    ∃ s : Batcher, Reachable ⟨false, false, 1⟩ anyStep s ∧ s.state = .kAborted ∧
      s.ops = [0] ∧
      (∀ x, (s.placesOf s.frames).count x ≤ 1 ∧
        (s.nextOpSequenceNumber ≤ x → (s.placesOf s.frames).count x = 0)) ∧
      (s.state = .kAborted → s.ops.Perm s.pendingLookups) ∧
      s.outstandingLookups = s.pendingLookups.length := by
  have hrun : (Batcher.init false false false).run ⟨false, false, 1⟩
      [.add ⟨.qlWrite, false, .strong, false, 0, .ok "k", false, none⟩, .run 0 false,
        .abort ⟨.kAborted, "a"⟩] = some (.ok _) := rfl
  have hr := Reachable.run (.init false false false) (fun _ _ _ => trivial) hrun
  exact ⟨_, hr, rfl, rfl, census_with_abort hr⟩

theorem hasPendingOperations_iff_ne_nil {l : List ℕ} (hp : s.ops.Perm l) :
    s.hasPendingOperations = true ↔ l ≠ [] := by
  rw [hasPendingOperations, Bool.not_eq_true', List.isEmpty_eq_false, ne_eq, ne_eq,
    ← List.length_eq_zero, ← List.length_eq_zero, hp.length_eq]

/-- **What `HasPendingOperations` answers.**  In every run: before `Abort`, whether
an admitted op is pending, queued, in the local list of a `FlushBuffersIfReady` call, or in
an RPC whose completion has not removed it; after `Abort`, whether a lookup is pending. -/
theorem has_pending_operations {allowed : Batcher → Label → Prop} (h : Reachable f allowed s) :
    (s.state ≠ .kAborted → (s.hasPendingOperations = true ↔ s.census ≠ [])) ∧
    (s.state = .kAborted → (s.hasPendingOperations = true ↔ s.pendingLookups ≠ [])) := by
  have hc := census_reachable h
  exact ⟨fun ha => hasPendingOperations_iff_ne_nil
      (List.perm_iff_count.2 fun x => ((hc.census_at x).2.2.2.2.1 ha).symm),
    fun ha => hasPendingOperations_iff_ne_nil
      (List.perm_iff_count.2 fun x => ((hc.census_at x).2.2.2.2.2 ha).symm)⟩

/-- Two ops, one queued and one whose lookup is pending: pending before `Abort`, and after it,
while the lookup is. -/
theorem has_pending_operations_abort :
    (∃ s : Batcher, Reachable ⟨false, false, 1⟩ anyStep s ∧ s.state = .kGatheringOps ∧
      s.hasPendingOperations = true ∧ s.census = [1, 0] ∧
      (s.state ≠ .kAborted → (s.hasPendingOperations = true ↔ s.census ≠ [])) ∧
      (s.state = .kAborted → (s.hasPendingOperations = true ↔ s.pendingLookups ≠ []))) ∧
    ∃ s : Batcher, Reachable ⟨false, false, 1⟩ anyStep s ∧ s.state = .kAborted ∧
      s.hasPendingOperations = true ∧ s.pendingLookups = [1] ∧
      (s.state ≠ .kAborted → (s.hasPendingOperations = true ↔ s.census ≠ [])) ∧
      (s.state = .kAborted → (s.hasPendingOperations = true ↔ s.pendingLookups ≠ [])) := by
  have hrun : (Batcher.init false false false).run ⟨false, false, 1⟩
      [.add ⟨.qlWrite, false, .strong, false, 7, .ok "k", false, none⟩,
        .add ⟨.qlWrite, false, .strong, false, 0, .ok "k", false, none⟩, .run 0 false,
        .run 0 false] = some (.ok _) := rfl
  have hrun' : (Batcher.init false false false).run ⟨false, false, 1⟩
      [.add ⟨.qlWrite, false, .strong, false, 7, .ok "k", false, none⟩,
        .add ⟨.qlWrite, false, .strong, false, 0, .ok "k", false, none⟩, .run 0 false,
        .run 0 false, .abort ⟨.kAborted, "abort"⟩] = some (.ok _) := rfl
  have hr := Reachable.run (.init false false false) (fun _ _ _ => trivial) hrun
  have hr' := Reachable.run (.init false false false) (fun _ _ _ => trivial) hrun'
  exact ⟨⟨_, hr, rfl, rfl, rfl, has_pending_operations hr⟩,
    _, hr', rfl, rfl, rfl, has_pending_operations hr'⟩

end Batcher

end ClientBatcher
