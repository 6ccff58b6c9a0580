import ClientBatcher.Transaction

/-!
# The outcome of a flush

`CheckForFinishedFlush` sets `kFlushed` once `ops_` is empty, and its unlocked tail hands the
flush callback a status computed from `combined_error_` and `had_errors_`.  An op leaves `ops_`
in one of three ways: its lookup fails (`MarkInFlightOpFailedUnlocked` records the error), the
completion of its RPC runs `RemoveInFlightOpsAfterFlushing` (after `ProcessRpcStatus` and
`ProcessWriteResponse` recorded the RPC's errors), or `Abort` fails it.

`OutcomeOf` is the invariant of every run, for the batcher's fields and the frames of its
threads:

* `had_errors_` says whether an error was recorded, and `combined_error_` is OK while none was;
* the error of every lookup that failed before `Abort`, of every failed RPC past
  `ProcessRpcStatus`, and of every in-range per-row error `ProcessWriteResponse` has handled is
  recorded;
* before `Abort`, every admitted op is in `ops_`, or its lookup failed, or its RPC has left
  flight; a flushed batcher's `ops_` is empty;
* the flush callback, pending or run, belongs to a flushed or an aborted batcher, and in a
  flushed one its status is OK iff no error was recorded.

* `flush_outcome` : once the batcher is `kFlushed`, every admitted op has left `ops_`, no RPC
  holds ops there, every error is recorded, and the status of the callback is OK iff no error was
  recorded.
* `flushed_before_rpc_completes` : but an RPC may not have finished: the batcher can be flushed,
  and the callback run, while an RPC that left `ops_` has yet to notify its ops, in the unlocked
  tail of `RemoveInFlightOpsAfterFlushing`.
-/

namespace ClientBatcher

/-- A run of the flush callback. -/
def Event.isCallback : Event → Bool
  | .callback _ => true
  | _ => false

/-- A frame that runs the flush callback. -/
def Frame.isCallback : Frame → Bool
  | .flushFinished | .runCallback _ | .runCallbackTail _ _ => true
  | _ => false

/-- The status a frame hands to the flush callback. -/
def Frame.callbackStatus : Frame → Option Status
  | .runCallback st | .runCallbackTail st _ => some st
  | _ => none

theorem Frame.isCallback_of_callbackStatus {c : Frame} {st : Status}
    (h : c.callbackStatus = some st) : c.isCallback = true := by
  cases c <;> simp_all [callbackStatus, isCallback]

/-- Every per-row error of the response has been handled. -/
def RpcPhase.rowsHandled : RpcPhase → Bool
  | .sent | .failing => false
  | .rowErrors es => es.isEmpty
  | .removing | .notifying | .done => true

/-- The per-row errors of an RPC that `ProcessWriteResponse` has handled. -/
def AsyncRpc.rowErrorsDone (rpc : AsyncRpc) : List PerRowError :=
  match rpc.phase with
  | .sent | .failing => []
  | .rowErrors es => rpc.perRowErrors.take (rpc.perRowErrors.length - es.length)
  | .removing | .notifying | .done => rpc.perRowErrors

theorem AsyncRpc.rowErrorsDone_of_rowsHandled {rpc : AsyncRpc} (h : rpc.phase.rowsHandled = true) :
    rpc.rowErrorsDone = rpc.perRowErrors := by
  unfold rowErrorsDone
  split <;> simp_all [RpcPhase.rowsHandled]

/-- Handling the per-row error `e` adds it to the handled ones. -/
theorem AsyncRpc.rowErrorsDone_next {rpc : AsyncRpc} {e : PerRowError} {es : List PerRowError}
    (hp : rpc.phase = .rowErrors (e :: es)) (hs : e :: es <:+ rpc.perRowErrors) :
    ({ rpc with phase := .rowErrors es } : AsyncRpc).rowErrorsDone = rpc.rowErrorsDone ++ [e] := by
  obtain ⟨pre, hpre⟩ := hs
  simp only [rowErrorsDone, hp, ← hpre, List.length_append, List.length_cons]
  rw [show pre.length + (es.length + 1) - es.length = pre.length + 1 by omega,
    show pre.length + (es.length + 1) - (es.length + 1) = pre.length by omega, List.take_append,
    List.take_left]
  rfl

/-- What holds of an RPC for the recorded errors `errors`: once `ProcessRpcStatus` has run, the
ops of a failed RPC have its error; the per-row errors still to handle are a suffix of the
response's, and every handled one whose row index is in range is recorded for its op. -/
structure RpcOutcome (errors : List (ℕ × Status)) (rpc : AsyncRpc) : Prop where
  failed : rpc.phase ≠ .sent → rpc.phase ≠ .failing → rpc.status.ok = false →
    ∀ x ∈ rpc.ops, (x, rpc.status) ∈ errors
  failing_status : rpc.phase = .failing → rpc.status.ok = false
  row_suffix : ∀ es, rpc.phase = .rowErrors es → es <:+ rpc.perRowErrors
  row_failed : ∀ e ∈ rpc.rowErrorsDone, ∀ y, rpc.ops[e.rowIndex]? = some y → (y, e.error) ∈ errors
  nonempty : rpc.ops ≠ []

namespace RpcOutcome

variable {es es' : List (ℕ × Status)} {rpc : AsyncRpc}

theorem mono (h : RpcOutcome es rpc) (hsub : ∀ e ∈ es, e ∈ es') : RpcOutcome es' rpc :=
  { h with
    failed := fun h1 h2 h3 x hx => hsub _ (h.failed h1 h2 h3 x hx)
    row_failed := fun e he y hy => hsub _ (h.row_failed e he y hy) }

/-- The RPC `FlushBuffer` creates. -/
theorem sent (hp : rpc.phase = .sent) (hne : rpc.ops ≠ []) : RpcOutcome es rpc where
  failed h1 := absurd hp h1
  failing_status hf := by rw [hp] at hf; cases hf
  row_suffix _ hr := by rw [hp] at hr; cases hr
  row_failed e he := by simp [AsyncRpc.rowErrorsDone, hp] at he
  nonempty := hne

/-- The response reaches `ProcessRpcStatus`. -/
theorem respond {st : Status} {errs : List PerRowError} (h : RpcOutcome es rpc) :
    RpcOutcome es (rpc.respond st errs) := by
  cases hst : st.ok <;> refine ⟨?_, ?_, ?_, ?_, h.nonempty⟩ <;>
    simp [AsyncRpc.respond, AsyncRpc.rowErrorsDone, hst]

/-- The critical section of `ProcessRpcStatus` for a failed RPC records its error for its
ops. -/
theorem failing (h : RpcOutcome es rpc) (hall : ∀ x ∈ rpc.ops, (x, rpc.status) ∈ es') :
    RpcOutcome es' { rpc with phase := .rowErrors rpc.perRowErrors } where
  failed _ _ _ := hall
  failing_status hf := by cases hf
  row_suffix _ hr := by cases hr; exact List.suffix_refl _
  row_failed e he := by simp [AsyncRpc.rowErrorsDone] at he
  nonempty := h.nonempty

/-- `ProcessWriteResponse` handles one per-row error. -/
theorem rowError {e : PerRowError} {rest : List PerRowError} (h : RpcOutcome es rpc)
    (hp : rpc.phase = .rowErrors (e :: rest)) (hsub : ∀ x ∈ es, x ∈ es')
    (he : ∀ y, rpc.ops[e.rowIndex]? = some y → (y, e.error) ∈ es') :
    RpcOutcome es' { rpc with phase := .rowErrors rest } where
  failed _ _ h3 x hx := hsub _ (h.failed (by rw [hp]; nofun) (by rw [hp]; nofun) h3 x hx)
  failing_status hf := by cases hf
  row_suffix _ hr := by cases hr; exact (List.suffix_cons e rest).trans (h.row_suffix _ hp)
  row_failed e' he' y hy := by
    rw [AsyncRpc.rowErrorsDone_next hp (h.row_suffix _ hp), List.mem_append,
      List.mem_singleton] at he'
    rcases he' with he' | rfl
    · exact hsub _ (h.row_failed e' he' y hy)
    · exact he y hy
  nonempty := h.nonempty

/-- Past the per-row errors, the completion only advances the phase. -/
theorem advance {q : RpcPhase} (h : RpcOutcome es rpc) (hp : rpc.phase.rowsHandled = true)
    (hq : q.rowsHandled = true) : RpcOutcome es { rpc with phase := q } where
  failed _ _ := h.failed (fun h' => by simp [h', RpcPhase.rowsHandled] at hp)
    (fun h' => by simp [h', RpcPhase.rowsHandled] at hp)
  failing_status hf := by cases hf; simp [RpcPhase.rowsHandled] at hq
  row_suffix es hr := by
    cases hr
    cases es
    · exact List.nil_suffix
    · simp [RpcPhase.rowsHandled] at hq
  row_failed e he := h.row_failed e (by
    rw [AsyncRpc.rowErrorsDone_of_rowsHandled hp]
    rwa [AsyncRpc.rowErrorsDone_of_rowsHandled
      (show ({ rpc with phase := q } : AsyncRpc).phase.rowsHandled = true from hq)] at he)
  nonempty := h.nonempty

/-- An RPC out of flight has recorded all its errors. -/
theorem done (h : RpcOutcome es rpc) (hin : rpc.inFlight = false) :
    (rpc.status.ok = false → ∀ x ∈ rpc.ops, (x, rpc.status) ∈ es) ∧
    ∀ e ∈ rpc.perRowErrors, ∀ y, rpc.ops[e.rowIndex]? = some y → (y, e.error) ∈ es := by
  have hh : rpc.phase.rowsHandled = true := by
    unfold AsyncRpc.inFlight at hin; split at hin <;> simp_all [RpcPhase.rowsHandled]
  refine ⟨h.failed (fun h' => by simp [h', RpcPhase.rowsHandled] at hh)
    (fun h' => by simp [h', RpcPhase.rowsHandled] at hh), fun e he => h.row_failed e ?_⟩
  rwa [AsyncRpc.rowErrorsDone_of_rowsHandled hh]

end RpcOutcome

namespace Batcher

variable {f : Flags} {s sd : Batcher} {c k R : List Frame}

/-! ### Recording errors -/

/-- `sd`'s error fields are `s`'s with the errors `l` recorded after them. -/
def ErrorsGrow (s sd : Batcher) : Prop :=
  ∃ l, sd.errors = s.errors ++ l ∧ sd.hadErrors = (s.hadErrors || !l.isEmpty) ∧
    (l = [] → sd.combinedError = s.combinedError)

theorem ErrorsGrow.mem (h : ErrorsGrow s sd) {e : ℕ × Status} (he : e ∈ s.errors) :
    e ∈ sd.errors := by
  obtain ⟨l, h1, -⟩ := h; rw [h1]; exact List.mem_append_left _ he

theorem errorsGrow_same (he : sd.errors = s.errors) (hh : sd.hadErrors = s.hadErrors)
    (hc : sd.combinedError = s.combinedError) : ErrorsGrow s sd :=
  ⟨[], by simp [he], by simp [hh], fun _ => hc⟩

/-- The errors of the ops `l`, all with the status `st`. -/
theorem errorsGrow_map {l : List ℕ} {st : Status} (he : sd.errors = s.errors ++ l.map (·, st))
    (hh : sd.hadErrors = (s.hadErrors || !l.isEmpty))
    (hc : l = [] → sd.combinedError = s.combinedError) :
    ErrorsGrow s sd :=
  ⟨_, he, by rw [hh]; cases l <;> rfl, fun hl => hc (List.map_eq_nil_iff.1 hl)⟩

/-- The error of one op, as `CombineErrorUnlocked` records it. -/
theorem errorsGrow_cons {op : ℕ} {st : Status} (he : sd.errors = s.errors ++ [(op, st)])
    (hh : sd.hadErrors = true) : ErrorsGrow s sd :=
  ⟨_, he, by simp [hh], fun h => absurd h (List.cons_ne_nil _ _)⟩

theorem ErrorsGrow.had_errors (h : ErrorsGrow s sd) (hs : s.hadErrors = !s.errors.isEmpty) :
    sd.hadErrors = !sd.errors.isEmpty := by
  obtain ⟨l, he, hh, -⟩ := h
  rw [hh, he, hs]; cases s.errors <;> cases l <;> rfl

theorem ErrorsGrow.combined_ok (h : ErrorsGrow s sd)
    (hs : s.errors = [] → s.combinedError = Status.OK) :
    sd.errors = [] → sd.combinedError = Status.OK := fun hnil => by
  obtain ⟨l, he, -, hce⟩ := h
  rw [he, List.append_eq_nil] at hnil
  rw [hce hnil.2]; exact hs hnil.1

/-- The status `CheckForFinishedFlush` hands to the callback is OK iff no error was recorded. -/
theorem flushStatus_ok (h1 : s.hadErrors = !s.errors.isEmpty)
    (h2 : s.errors = [] → s.combinedError = Status.OK) :
    s.flushStatus.ok = true ↔ s.errors = [] := by
  unfold flushStatus
  by_cases he : s.errors = []
  · simp [he, h1, h2 he]
  · have hh : s.hadErrors = true := by simp [h1, he]
    split_ifs with hc <;> simp_all [Status.ok]

/-! ### The invariant -/

/-- The invariant of the outcome, for the batcher's fields `s` and the frames `fr` of its
threads. -/
structure OutcomeOf (s : Batcher) (fr : List Frame) : Prop where
  had_errors : s.hadErrors = !s.errors.isEmpty
  combined_ok : s.errors = [] → s.combinedError = Status.OK
  lookup_failed : s.state ≠ .kAborted →
    ∀ x st, Event.lookupFinished x (.error st) ∈ s.trace → (x, st) ∈ s.errors
  rpcs_ok : ∀ rpc ∈ s.rpcs, RpcOutcome s.errors rpc
  finished : s.state ≠ .kAborted → ∀ x < s.nextOpSequenceNumber, x ∈ s.ops ∨
    (∃ st, Event.lookupFinished x (.error st) ∈ s.trace) ∨
    ∃ rpc ∈ s.rpcs, x ∈ rpc.ops ∧ rpc.inFlight = false
  flushed_empty : s.state = .kFlushed → s.ops = []
  callback_frames : ∀ c ∈ fr, c.isCallback = true → s.state = .kFlushed ∨ s.state = .kAborted
  pending_callback : ∀ c ∈ fr, ∀ st, c.callbackStatus = some st → s.state = .kFlushed →
    (st.ok = true ↔ s.errors = [])
  callbacks : ∀ st, Event.callback st ∈ s.trace → s.state = .kFlushed ∨ s.state = .kAborted
  callback_ok : ∀ st, Event.callback st ∈ s.trace → s.state = .kFlushed →
    (st.ok = true ↔ s.errors = [])

/-- The invariant of every run. -/
def Outcome (s : Batcher) : Prop := s.OutcomeOf s.frames

/-- The invariant reads the frames only through the callback frames among them. -/
theorem OutcomeOf.subset {fr fr' : List Frame} (h : s.OutcomeOf fr)
    (hsub : ∀ x ∈ fr', x.isCallback = true → x ∈ fr) : s.OutcomeOf fr' :=
  { h with
    callback_frames := fun c hc hcb => h.callback_frames c (hsub c hc hcb) hcb
    pending_callback := fun c hc st hst =>
      h.pending_callback c (hsub c hc (Frame.isCallback_of_callbackStatus hst)) st hst }

theorem OutcomeOf.perm {fr fr' : List Frame} (h : s.OutcomeOf fr) (hp : fr.Perm fr') :
    s.OutcomeOf fr' :=
  h.subset fun _ hx _ => hp.mem_iff.2 hx

/-- Frames that run no callback come and go freely. -/
theorem OutcomeOf.frames (h : s.OutcomeOf (c ++ R)) (hk : ∀ x ∈ k, x.isCallback = false) :
    s.OutcomeOf (k ++ R) :=
  h.subset fun x hx hcb => by
    rcases List.mem_append.1 hx with hx | hx
    · simp [hk x hx] at hcb
    · exact List.mem_append_right _ hx

/-- The invariant reads only these fields of the batcher. -/
theorem OutcomeOf.congr {fr : List Frame} (h : s.OutcomeOf fr) (h1 : sd.state = s.state)
    (h2 : sd.ops = s.ops) (h3 : sd.nextOpSequenceNumber = s.nextOpSequenceNumber)
    (h4 : sd.rpcs = s.rpcs) (h5 : sd.errors = s.errors) (h6 : sd.hadErrors = s.hadErrors)
    (h7 : sd.combinedError = s.combinedError) (h8 : sd.trace = s.trace) : sd.OutcomeOf fr := by
  obtain ⟨a1, a2, a3, a4, a5, a6, a7, a8, a9, a10⟩ := h
  simp only [← h1, ← h2, ← h3, ← h4, ← h5, ← h6, ← h7, ← h8] at a1 a2 a3 a4 a5 a6 a7 a8 a9 a10
  exact ⟨a1, a2, a3, a4, a5, a6, a7, a8, a9, a10⟩

/-- Until `Abort`, the ops of an RPC in flight are in `ops_`. -/
theorem CensusOf.mem_ops_of_inFlight {fr : List Frame} (hc : s.CensusOf fr)
    (hst : s.state ≠ .kAborted) {rpc : AsyncRpc} (hr : rpc ∈ s.rpcs) (hin : rpc.inFlight = true)
    {x : ℕ} (hx : x ∈ rpc.ops) : x ∈ s.ops := by
  have h5 := (hc.census_at x).2.2.2.2.1 hst
  rw [count_censusOf] at h5
  have : 0 < s.inFlightOps.count x :=
    List.count_pos_iff.2 (List.mem_flatMap.2 ⟨rpc, hr, by simp [hin, hx]⟩)
  exact List.count_pos_iff.1 (by omega)

/-- A flushed batcher has no RPC in flight. -/
theorem OutcomeOf.not_inFlight {fr fr' : List Frame} (h : s.OutcomeOf fr) (hc : s.CensusOf fr')
    (hf : s.state = .kFlushed) {rpc : AsyncRpc} (hr : rpc ∈ s.rpcs) : rpc.inFlight = false := by
  by_contra hin
  obtain ⟨x, hx⟩ := List.exists_mem_of_ne_nil _ (h.rpcs_ok rpc hr).nonempty
  have := hc.mem_ops_of_inFlight (by rw [hf]; decide) hr (by simpa using hin) hx
  simp [h.flushed_empty hf] at this

/-! ### What each action does to it -/

/-- An action that makes no callback frame, keeps `state_` and the admissions, only adds RPCs
that keep `RpcOutcome` and keeps the RPCs out of flight, only removes ops from `ops_` whose lookup
failed or whose RPC left flight, records the errors of the failed lookups it answers, runs no
callback, and records no error once the batcher is flushed, keeps the invariant. -/
theorem OutcomeOf.quiet (h : s.OutcomeOf (c ++ R)) (hk : ∀ x ∈ k, x.isCallback = false)
    (hst : sd.state = s.state) (hn : sd.nextOpSequenceNumber = s.nextOpSequenceNumber)
    (hrpcs : ∀ rpc ∈ sd.rpcs, rpc ∈ s.rpcs ∨ RpcOutcome sd.errors rpc)
    (hdone : ∀ rpc ∈ s.rpcs, rpc.inFlight = false →
      ∃ rpc' ∈ sd.rpcs, rpc'.ops = rpc.ops ∧ rpc'.inFlight = false)
    (hsub : ∀ x ∈ sd.ops, x ∈ s.ops)
    (hleft : s.state ≠ .kAborted → ∀ x ∈ s.ops, x ∉ sd.ops →
      (∃ st, Event.lookupFinished x (.error st) ∈ sd.trace) ∨
      ∃ rpc ∈ sd.rpcs, x ∈ rpc.ops ∧ rpc.inFlight = false)
    (htr : ∃ evs, sd.trace = s.trace ++ evs ∧ ∀ e ∈ evs, e.isCallback = false)
    (hlk : s.state ≠ .kAborted → ∀ x st, Event.lookupFinished x (.error st) ∈ sd.trace →
      Event.lookupFinished x (.error st) ∈ s.trace ∨ (x, st) ∈ sd.errors)
    (herr : ErrorsGrow s sd) (hfrozen : s.state = .kFlushed → sd.errors = s.errors) :
    sd.OutcomeOf (k ++ R) := by
  obtain ⟨evs, htr, hevs⟩ := htr
  have hcb : ∀ st, Event.callback st ∈ sd.trace → Event.callback st ∈ s.trace := fun st hm => by
    rw [htr] at hm
    rcases List.mem_append.1 hm with hm | hm
    · exact hm
    · simpa [Event.isCallback] using hevs _ hm
  have hf' := h.frames hk
  have frozen : sd.state = .kFlushed → sd.errors = s.errors := fun hf => hfrozen (hst ▸ hf)
  refine ⟨herr.had_errors h.had_errors, herr.combined_ok h.combined_ok, fun ha x st hm => ?_,
    fun rpc hrpc => ?_, fun ha x hx => ?_, fun hf => ?_, fun x hx hc => ?_, fun c hc st hm hf => ?_,
    fun st hm => ?_, fun st hm hf => ?_⟩
  · rcases hlk (hst ▸ ha) x st hm with hm | hm
    · exact herr.mem (h.lookup_failed (hst ▸ ha) x st hm)
    · exact hm
  · rcases hrpcs rpc hrpc with hrpc | hrpc
    · exact (h.rpcs_ok rpc hrpc).mono fun _ => herr.mem
    · exact hrpc
  · rw [hn] at hx
    rcases h.finished (hst ▸ ha) x hx with hx' | ⟨st, hm⟩ | ⟨rpc, hrpc, h1, h2⟩
    · by_cases hin : x ∈ sd.ops
      · exact .inl hin
      · exact .inr (hleft (hst ▸ ha) x hx' hin)
    · exact .inr (.inl ⟨st, htr ▸ List.mem_append_left _ hm⟩)
    · obtain ⟨rpc', hrpc', hops, hfl⟩ := hdone rpc hrpc h2
      exact .inr (.inr ⟨rpc', hrpc', hops ▸ h1, hfl⟩)
  · have := h.flushed_empty (hst ▸ hf)
    exact List.eq_nil_iff_forall_not_mem.2 fun x hx => by simpa [this] using hsub x hx
  · rw [hst]; exact hf'.callback_frames x hx hc
  · rw [frozen hf]; exact hf'.pending_callback c hc st hm (hst ▸ hf)
  · rw [hst]; exact h.callbacks st (hcb st hm)
  · rw [frozen hf]; exact h.callback_ok st (hcb st hm) (hst ▸ hf)

/-- No trace event. -/
theorem trace_same : ∃ evs, s.trace = s.trace ++ evs ∧ ∀ e ∈ evs, e.isCallback = false :=
  ⟨[], (List.append_nil _).symm, fun _ h => absurd h (List.not_mem_nil _)⟩

/-- The RPCs after one is replaced by `a`: the others, and `a`. -/
theorem rpcs_set {l : List AsyncRpc} {r : ℕ} {a : AsyncRpc} {P : AsyncRpc → Prop} (ha : P a) :
    ∀ y ∈ l.set r a, y ∈ l ∨ P y := fun _ hy => by
  rcases List.mem_or_eq_of_mem_set hy with hy | rfl
  exacts [.inl hy, .inr ha]

/-- An RPC other than the one replaced stays. -/
theorem mem_set_of_ne {l : List AsyncRpc} {r : ℕ} {a b y : AsyncRpc} (hb : l[r]? = some b)
    (hy : y ∈ l) (hne : y ≠ b) : y ∈ l.set r a := by
  obtain ⟨hr, rfl⟩ := List.getElem?_eq_some_iff.1 hb
  obtain ⟨i, hi, rfl⟩ := List.getElem_of_mem hy
  have hir : r ≠ i := by rintro rfl; exact hne rfl
  rw [← List.getElem_set_ne hir (by simpa using hi)]
  exact List.getElem_mem _

/-- Replacing an RPC by one with its ops that is out of flight if it was keeps every RPC out of
flight. -/
theorem done_set {l : List AsyncRpc} {r : ℕ} {a b : AsyncRpc} (hb : l[r]? = some b)
    (hops : a.ops = b.ops) (hfl : b.inFlight = false → a.inFlight = false) :
    ∀ y ∈ l, y.inFlight = false → ∃ y' ∈ l.set r a, y'.ops = y.ops ∧ y'.inFlight = false := by
  intro y hy hf
  by_cases hyb : y = b
  · subst hyb
    exact ⟨a, List.mem_set l r (List.getElem?_eq_some_iff.1 hb).1 a, hops, hfl hf⟩
  · exact ⟨y, mem_set_of_ne hb hy hyb, rfl, hf⟩

/-- `Abort`, directly or from `TransactionReady`: once the batcher is aborted, only the records of
the errors and of the RPCs are left to keep. -/
theorem OutcomeOf.aborted {fr fr' : List Frame} (h : s.OutcomeOf fr) (hst : sd.state = .kAborted)
    (hr : sd.rpcs = s.rpcs) (herr : ErrorsGrow s sd) : sd.OutcomeOf fr' where
  had_errors := herr.had_errors h.had_errors
  combined_ok := herr.combined_ok h.combined_ok
  lookup_failed ha := absurd hst ha
  rpcs_ok rpc hrpc := (h.rpcs_ok rpc (hr ▸ hrpc)).mono fun _ => herr.mem
  finished ha := absurd hst ha
  flushed_empty hf := by rw [hst] at hf; cases hf
  callback_frames _ _ _ := .inr hst
  pending_callback _ _ _ _ hf := by rw [hst] at hf; cases hf
  callbacks _ _ := .inr hst
  callback_ok _ _ hf := by rw [hst] at hf; cases hf

/-- Events that record no failed lookup leave the failed lookups of the trace alone. -/
theorem lookup_failed_of_log {evs : List Event} (htr : sd.trace = s.trace ++ evs)
    (hevs : ∀ e ∈ evs, e.isCallback = false ∧ ∀ x st, e ≠ .lookupFinished x (.error st))
    (x : ℕ) (st : Status) (hm : Event.lookupFinished x (.error st) ∈ sd.trace) :
    Event.lookupFinished x (.error st) ∈ s.trace := by
  rw [htr, List.mem_append] at hm
  exact hm.elim id fun hm => absurd rfl ((hevs _ hm).2 x st)

/-- An action that only logs events other than a failed lookup or a callback, and starts no
callback frame. -/
theorem OutcomeOf.log {evs : List Event} (h : s.OutcomeOf (c ++ R))
    (hk : ∀ x ∈ k, x.isCallback = false) (hst : sd.state = s.state) (hops : sd.ops = s.ops)
    (hn : sd.nextOpSequenceNumber = s.nextOpSequenceNumber) (hrpcs : sd.rpcs = s.rpcs)
    (he : sd.errors = s.errors) (hh : sd.hadErrors = s.hadErrors)
    (hce : sd.combinedError = s.combinedError) (htr : sd.trace = s.trace ++ evs)
    (hevs : ∀ e ∈ evs, e.isCallback = false ∧ ∀ x st, e ≠ .lookupFinished x (.error st)) :
    sd.OutcomeOf (k ++ R) :=
  h.quiet hk hst hn (fun _ hr => .inl (hrpcs ▸ hr)) (fun rpc hr hf => ⟨rpc, hrpcs ▸ hr, rfl, hf⟩)
    (fun _ hx => hops ▸ hx) (fun _ _ hx hx' => absurd (hops ▸ hx) hx')
    ⟨evs, htr, fun e he => (hevs e he).1⟩
    (fun _ x st hm => .inl (lookup_failed_of_log htr hevs x st hm))
    (errorsGrow_same he hh hce) (fun _ => he)

/-- `Add` admits the op into `ops_`. -/
theorem OutcomeOf.insertOp {op : InFlightOp} (h : s.OutcomeOf R) (hst : s.state = .kGatheringOps) :
    (s.insertOp op).OutcomeOf ([.addTail s.nextOpSequenceNumber] ++ R) := by
  refine { h.frames (c := []) (by simp [Frame.isCallback]) with
    finished := fun ha x hx => ?_
    flushed_empty := fun hf => by simp [hst] at hf }
  rcases Nat.lt_succ_iff_lt_or_eq.1 hx with hx | rfl
  · exact (h.finished ha x hx).imp_left (List.mem_append_left _)
  · exact .inl (List.mem_append_right _ (List.mem_singleton_self _))

/-- `FlushAsync` moves the batcher to `kFlushing`; nothing it keeps depends on that. -/
theorem OutcomeOf.flushAsync {now : ℤ} (h : s.OutcomeOf R) (hs : s.state = .kGatheringOps) :
    { s with
      state := .kFlushing
      flushCallback := true
      deadline := some (s.computeDeadlineUnlocked now) }.OutcomeOf
      (.checkForFinishedFlush :: .flushBuffersIfReady :: R) := by
  have ng : ¬(s.state = .kFlushed ∨ s.state = .kAborted) := by rw [hs]; decide
  have h' := h.frames (c := []) (k := [.checkForFinishedFlush, .flushBuffersIfReady])
    (by simp [Frame.isCallback])
  exact { h' with
    lookup_failed := fun _ => h.lookup_failed (by rw [hs]; decide)
    finished := fun _ => h.finished (by rw [hs]; decide)
    flushed_empty := fun hf => by cases hf
    callback_frames := fun x hx hc => absurd (h'.callback_frames x hx hc) ng
    pending_callback := fun _ _ _ _ hf => by cases hf
    callbacks := fun st hm => absurd (h.callbacks st hm) ng
    callback_ok := fun _ _ hf => by cases hf }

/-- The critical section of `TabletLookupFinished` records the lookup, and the error of a failed
one. -/
theorem OutcomeOf.lookup {op : ℕ} {r : LookupResult} (h : s.OutcomeOf (c ++ R))
    (hl : LookupEffect f op r s sd k) : sd.OutcomeOf (k ++ R) := by
  cases hl
  case aborted ha hop =>
    exact h.quiet (by simp) rfl rfl (fun _ => .inl) (fun rpc hr hf => ⟨rpc, hr, rfl, hf⟩)
      (fun _ => List.mem_of_mem_erase) (fun hne => absurd ha hne)
      ⟨_, rfl, by simp [Event.isCallback]⟩ (fun hne => absurd ha hne) (errorsGrow_cons rfl rfl)
      (fun hf => by rw [ha] at hf; cases hf)
  case found t _ hr _ _ =>
    subst hr
    exact h.log (by simp [Frame.isCallback]) rfl rfl rfl rfl rfl rfl rfl rfl
      (by simp [Event.isCallback])
  case failed st _ hr hop =>
    subst hr
    refine h.quiet (by simp [Frame.isCallback]) rfl rfl (fun _ => .inl)
      (fun rpc hr hf => ⟨rpc, hr, rfl, hf⟩) (fun _ => List.mem_of_mem_erase)
      (fun _ x hx hx' => .inl ⟨st, ?_⟩) ⟨_, rfl, by simp [Event.isCallback]⟩
      (fun _ x st' hm => ?_) (errorsGrow_cons rfl rfl)
      (fun hf => by simp [h.flushed_empty hf] at hop)
    · obtain rfl : x = op := by_contra fun hne => hx' ((List.mem_erase_of_ne hne).2 hx)
      simp
    · simp only [combineErrorUnlocked_trace, recordLookup_trace, List.mem_append,
        List.mem_singleton, Event.lookupFinished.injEq, LookupResult.error.injEq] at hm
      rcases hm with hm | ⟨rfl, rfl⟩
      · exact .inl hm
      · exact .inr (by simp)

/-- `CheckForFinishedFlush` sets `kFlushed` only once `ops_` is empty. -/
theorem OutcomeOf.checkFinished (h : s.OutcomeOf (.checkForFinishedFlush :: R))
    (hst : s.state = .kFlushing) (hops : s.ops = []) :
    { s with state := .kFlushed }.OutcomeOf (.flushFinished :: R) := by
  have ng : ¬(s.state = .kFlushed ∨ s.state = .kAborted) := by rw [hst]; decide
  refine { h with
    lookup_failed := fun _ => h.lookup_failed (by rw [hst]; decide)
    finished := fun _ => h.finished (by rw [hst]; decide)
    flushed_empty := fun _ => hops
    callback_frames := fun _ _ _ => .inl rfl
    pending_callback := fun c hm st hc _ => ?_
    callbacks := fun st hm => absurd (h.callbacks st hm) ng
    callback_ok := fun st hm => absurd (h.callbacks st hm) ng }
  rcases List.mem_cons.1 hm with rfl | hm
  · cases hc
  · exact absurd (h.callback_frames c (.tail _ hm) (Frame.isCallback_of_callbackStatus hc)) ng

/-- The unlocked tail of `CheckForFinishedFlush` computes the status it hands to the callback. -/
theorem OutcomeOf.flushFinished (h : s.OutcomeOf (.flushFinished :: R)) :
    s.OutcomeOf ([.runCallback s.flushStatus] ++ R) := by
  have hst := h.callback_frames _ (List.mem_cons_self _ _) rfl
  refine { h with
    callback_frames := fun x hx hc => ?_
    pending_callback := fun x hx st hc hf => ?_ }
  · rcases List.mem_cons.1 hx with rfl | hx
    · exact hst
    · exact h.callback_frames x (.tail _ hx) hc
  · rcases List.mem_cons.1 hx with rfl | hx
    · cases hc
      exact flushStatus_ok h.had_errors h.combined_ok
    · exact h.pending_callback x (.tail _ hx) st hc hf

/-- The move of `RunCallback` passes the status on to the runnable. -/
theorem OutcomeOf.runCallback {st : Status} {taken : Bool}
    (h : s.OutcomeOf (.runCallback st :: R)) : s.OutcomeOf ([.runCallbackTail st taken] ++ R) :=
  { h with
    callback_frames := fun x hx hc => by
      rcases List.mem_cons.1 hx with rfl | hx
      exacts [h.callback_frames _ (List.mem_cons_self _ _) rfl, h.callback_frames x (.tail _ hx) hc]
    pending_callback := fun x hx st' hc => by
      rcases List.mem_cons.1 hx with rfl | hx
      exacts [h.pending_callback _ (List.mem_cons_self _ _) st' hc,
        h.pending_callback x (.tail _ hx) st' hc] }

/-- The runnable of `RunCallback` runs the callback with the status it was handed. -/
theorem OutcomeOf.runCallbackTail {st : Status} (h : s.OutcomeOf (.runCallbackTail st true :: R)) :
    { s with flushCallback := false, trace := s.trace ++ [Event.callback st] }.OutcomeOf R := by
  have hst := h.callback_frames _ (List.mem_cons_self _ _) rfl
  have hcb : ∀ st', Event.callback st' ∈ s.trace ++ [.callback st] →
      Event.callback st' ∈ s.trace ∨ st' = st := by simp
  refine { h.subset fun _ hx _ => List.mem_cons_of_mem _ hx with
    lookup_failed := fun ha x st' hm => h.lookup_failed ha x st' (by simpa using hm)
    finished := fun ha x hx => (h.finished ha x hx).imp_right
      (Or.imp_left fun ⟨st', hm⟩ => ⟨st', List.mem_append_left _ hm⟩)
    callbacks := fun st' hm => ?_
    callback_ok := fun st' hm hf => ?_ }
  · rcases hcb st' hm with hm | rfl
    · exact h.callbacks st' hm
    · exact hst
  · rcases hcb st' hm with hm | rfl
    · exact h.callback_ok st' hm hf
    · exact h.pending_callback _ (List.mem_cons_self _ _) _ rfl hf

/-- `FlushBuffer` creates an RPC with a non-empty range of ops. -/
theorem OutcomeOf.flushBuffer {call : FlushBufferCall} {first : ℕ} {rest : List ℕ}
    (h : s.OutcomeOf (c ++ R)) (hops : call.ops = first :: rest) (kind : RpcKind) :
    { s with rpcs := s.rpcs ++ [AsyncRpc.mk kind call.tablet call.allowLocalCallsInCurrThread
      call.needConsistentRead call.ops Status.OK [] .sent] }.OutcomeOf ([] ++ R) :=
  h.quiet (by simp) rfl rfl
    (fun rpc hr => (List.mem_append.1 hr).imp_right fun hr => by
      rw [List.mem_singleton.1 hr]; exact .sent rfl (by simp [hops]))
    (fun rpc hr hf => ⟨rpc, List.mem_append_left _ hr, rfl, hf⟩) (fun _ hx => hx)
    (fun _ _ hx hx' => absurd hx hx') trace_same (fun _ _ _ hm => .inl hm)
    (errorsGrow_same rfl rfl rfl) (fun _ => rfl)

/-- A piece of an RPC's completion that leaves `ops_` and the trace alone: it replaces the RPC by
one with its ops that keeps the outcome and is out of flight if the RPC was, and it records
errors only before the flush is over. -/
theorem OutcomeOf.setRpc {r : ℕ} {rpc rpc' : AsyncRpc} {errors : List (ℕ × Status)}
    {ce : Status} {he : Bool} (h : s.OutcomeOf (c ++ R)) (hk : ∀ x ∈ k, x.isCallback = false)
    (hr : s.rpcs[r]? = some rpc) (ho : RpcOutcome errors rpc') (hops : rpc'.ops = rpc.ops)
    (hfl : rpc.inFlight = false → rpc'.inFlight = false)
    (herr : ErrorsGrow s { s with errors := errors, combinedError := ce, hadErrors := he })
    (hfrozen : s.state = .kFlushed → errors = s.errors) :
    ({ s with errors := errors, combinedError := ce, hadErrors := he }.setRpc r rpc').OutcomeOf
      (k ++ R) :=
  h.quiet hk rfl rfl (rpcs_set ho) (done_set hr hops hfl) (fun _ hx => hx)
    (fun _ _ hx hx' => absurd hx hx') trace_same (fun _ _ _ hm => .inl hm) herr hfrozen

/-- A piece of an RPC's completion that only moves it on past its per-row errors. -/
theorem OutcomeOf.advance {r : ℕ} {rpc : AsyncRpc} {q : RpcPhase} (h : s.OutcomeOf (c ++ R))
    (hr : s.rpcs[r]? = some rpc) (hp : rpc.phase.rowsHandled = true)
    (hq : q.rowsHandled = true) (hfl : rpc.inFlight = false → ({ rpc with phase := q } :
      AsyncRpc).inFlight = false) :
    (s.setRpc r { rpc with phase := q }).OutcomeOf ([] ++ R) :=
  h.setRpc (by simp) hr ((h.rpcs_ok rpc (List.getElem?_mem hr)).advance hp hq) rfl hfl
    (errorsGrow_same rfl rfl rfl) fun _ => rfl

/-- The response of an RPC reaches `ProcessRpcStatus`. -/
theorem OutcomeOf.processRpcStatus {r : ℕ} {rpc : AsyncRpc} {st : Status} {errs : List PerRowError}
    (h : s.OutcomeOf (c ++ R)) (hr : s.rpcs[r]? = some rpc) (hp : rpc.phase = .sent) :
    (s.setRpc r (rpc.respond st errs)).OutcomeOf ([] ++ R) :=
  h.setRpc (by simp) hr (h.rpcs_ok rpc (List.getElem?_mem hr)).respond rfl
    (fun hf => by simp [AsyncRpc.inFlight, hp] at hf) (errorsGrow_same rfl rfl rfl) fun _ => rfl

/-- An RPC in flight keeps the batcher from `kFlushed`. -/
theorem OutcomeOf.not_flushed {r : ℕ} {rpc : AsyncRpc} (h : s.OutcomeOf (c ++ R))
    (hc : s.CensusOf (c ++ R)) (hr : s.rpcs[r]? = some rpc) (hin : rpc.inFlight = true) :
    s.state ≠ .kFlushed := fun hf => by
  simp [h.not_inFlight hc hf (List.getElem?_mem hr)] at hin

/-- The critical section of `ProcessRpcStatus` for a failed RPC records its status against
each of its ops. -/
theorem OutcomeOf.rpcFailed {r : ℕ} {rpc : AsyncRpc} (h : s.OutcomeOf (c ++ R))
    (hc : s.CensusOf (c ++ R)) (hr : s.rpcs[r]? = some rpc) (hp : rpc.phase = .failing) :
    ((rpc.ops.foldl (fun s op => combineErrorUnlocked f op rpc.status s) s).setRpc r
      { rpc with phase := .rowErrors rpc.perRowErrors }).OutcomeOf ([] ++ R) := by
  rw [foldl_combineErrorUnlocked]
  have hin : rpc.inFlight = true := by simp [AsyncRpc.inFlight, hp]
  exact h.setRpc (by simp) hr ((h.rpcs_ok rpc (List.getElem?_mem hr)).failing fun x hx =>
      List.mem_append_right _ (List.mem_map_of_mem _ hx)) rfl
    (fun hf => by simp [hin] at hf) (errorsGrow_map rfl rfl fun hl => by simp [hl])
    (fun hf => absurd hf (h.not_flushed hc hr hin))

/-- `ProcessWriteResponse` handles one per-row error: it records it against the op at its index,
if there is one. -/
theorem OutcomeOf.rowError {r : ℕ} {rpc : AsyncRpc} {e : PerRowError} {es : List PerRowError}
    {errors : List (ℕ × Status)} {ce : Status} {he : Bool} (h : s.OutcomeOf (c ++ R))
    (hc : s.CensusOf (c ++ R)) (hr : s.rpcs[r]? = some rpc) (hp : rpc.phase = .rowErrors (e :: es))
    (hsub : ∀ x ∈ s.errors, x ∈ errors)
    (hrec : ∀ y, rpc.ops[e.rowIndex]? = some y → (y, e.error) ∈ errors)
    (herr : ErrorsGrow s { s with errors := errors, combinedError := ce, hadErrors := he }) :
    ({ s with errors := errors, combinedError := ce, hadErrors := he }.setRpc r
      { rpc with phase := .rowErrors es }).OutcomeOf ([] ++ R) := by
  have hin : rpc.inFlight = true := by simp [AsyncRpc.inFlight, hp]
  have ho := h.rpcs_ok rpc (List.getElem?_mem hr)
  exact h.setRpc (by simp) hr (ho.rowError hp hsub hrec) rfl (fun hf => by simp [hin] at hf) herr
    (fun hf => absurd hf (h.not_flushed hc hr hin))

/-- The critical section of `RemoveInFlightOpsAfterFlushing` takes the RPC's ops out of
`ops_`: they have left flight. -/
theorem OutcomeOf.removed {r : ℕ} {rpc : AsyncRpc} {ops : List ℕ} (h : s.OutcomeOf (c ++ R))
    (hr : s.rpcs[r]? = some rpc) (hp : rpc.phase = .removing)
    (hcount : ∀ x, ops.count x + rpc.ops.count x = s.ops.count x) :
    ({ s with ops := ops }.setRpc r { rpc with phase := .notifying }).OutcomeOf ([] ++ R) := by
  obtain ⟨hlt, -⟩ := List.getElem?_eq_some_iff.1 hr
  refine h.quiet (by simp) rfl rfl
    (rpcs_set ((h.rpcs_ok rpc (List.getElem?_mem hr)).advance (by simp [hp, RpcPhase.rowsHandled])
      rfl))
    (done_set hr rfl fun _ => rfl) (fun x hx => ?_)
    (fun _ x hx hx' => .inr ⟨_, List.mem_set s.rpcs r hlt _, ?_, rfl⟩) trace_same
    (fun _ _ _ hm => .inl hm) (errorsGrow_same rfl rfl rfl) (fun _ => rfl)
  · have := hcount x
    have := List.count_pos_iff.2 (show x ∈ ops from hx)
    exact List.count_pos_iff.1 (by omega)
  · have := hcount x
    have := List.count_pos_iff.2 hx
    have := List.count_eq_zero.2 (show x ∉ ops from hx')
    exact List.count_pos_iff.1 (show 0 < rpc.ops.count x by omega)

/-- The unlocked tail of `RemoveInFlightOpsAfterFlushing`: `transaction->Flushed`. -/
theorem OutcomeOf.notified {r : ℕ} {rpc : AsyncRpc} (h : s.OutcomeOf (c ++ R))
    (hr : s.rpcs[r]? = some rpc) (hp : rpc.phase = .notifying) :
    (Batcher.setRpc { s with trace := s.trace ++
        if s.transaction then [Event.flushed rpc.ops rpc.status] else [] }
      r { rpc with phase := .done }).OutcomeOf ([Frame.checkForFinishedFlush] ++ R) := by
  have hev : ∀ e ∈ (if s.transaction then [Event.flushed rpc.ops rpc.status] else []),
      e.isCallback = false ∧ ∀ x st, e ≠ .lookupFinished x (.error st) := fun e he => by
    split at he <;> simp_all [Event.isCallback]
  exact h.quiet (by simp [Frame.isCallback]) rfl rfl
    (rpcs_set ((h.rpcs_ok rpc (List.getElem?_mem hr)).advance
      (by simp [hp, RpcPhase.rowsHandled]) rfl))
    (done_set hr rfl fun _ => rfl) (fun _ hx => hx) (fun _ _ hx hx' => absurd hx hx')
    ⟨_, rfl, fun e he => (hev e he).1⟩
    (fun _ x st hm => .inl (lookup_failed_of_log rfl hev x st hm))
    (errorsGrow_same rfl rfl rfl) (fun _ => rfl)

/-! ### Every run -/

/-- Every action keeps the invariant. -/
theorem OutcomeOf.act {a : Action} (hc : s.CensusOf (a.consumes ++ R))
    (h : s.OutcomeOf (a.consumes ++ R)) (ha : Effect f s a sd k) : sd.OutcomeOf (k ++ R) := by
  have same : ∀ e ∈ ([] : List Event), e.isCallback = false ∧
      ∀ x st, e ≠ .lookupFinished x (.error st) := by simp
  cases ha <;> simp only [Action.consumes] at h hc
  case addRejected => exact h
  case add hst _ => exact h.insertOp hst
  case flushAsync hst => exact h.flushAsync hst
  case abort ha | transactionFailed ha =>
    have he := abort_errors ha
    obtain ⟨_, _, _, _, rfl, -⟩ := abort_ok ha
    exact h.aborted rfl rfl he
  case lookupFinished hl =>
    exact OutcomeOf.lookup (h.congr rfl rfl rfl rfl rfl rfl rfl rfl :
      OutcomeOf { s with lookups := s.lookups.erase _ } _) hl
  case addTailFound hl => exact h.lookup hl
  case rpcFinished hr hp _ => exact h.processRpcStatus hr hp
  case rpcFailed hr hp => exact h.rpcFailed hc hr hp
  case rpcRowError hr hp hy =>
    exact h.rowError hc hr hp (fun _ => List.mem_append_left _)
      (fun y' hy' => by rw [hy] at hy'; cases hy'; simp) (errorsGrow_cons rfl rfl)
  case rpcRowErrorSkipped hr hp hle =>
    exact h.rowError hc hr hp (fun _ => id)
      (fun y hy => by rw [List.getElem?_eq_none hle] at hy; cases hy)
      (errorsGrow_same rfl rfl rfl)
  case rpcRowErrorsDone hr hp =>
    exact h.advance hr (by simp [hp, RpcPhase.rowsHandled]) rfl
      fun hf => by simp [AsyncRpc.inFlight, hp] at hf
  case rpcRemoved hr hp hrm =>
    obtain ⟨ops, rfl, hcount⟩ := removeInFlightOpsAfterFlushing_ok hrm
    exact h.removed hr hp hcount
  case rpcNotified hr hp => exact h.notified hr hp
  case checkFinished hst hops => exact h.checkFinished hst hops
  case flushFinished => exact h.flushFinished
  case runCallback => exact h.runCallback
  case runCallbackTail => exact h.runCallbackTail
  case flushBuffer hops => exact h.flushBuffer hops _
  case prepareDeferred | swap =>
    exact h.log (by simp [Frame.isCallback]) rfl rfl rfl rfl rfl rfl rfl rfl
      (by simp [Event.isCallback])
  case setTimeout | transactionReady | addTailLookup | checkNotFinished | flushNotReady =>
    exact h.log (by simp [Frame.isCallback]) rfl rfl rfl rfl rfl rfl rfl (List.append_nil _).symm
      same

theorem Outcome.step {s s' : Batcher} {l : Label} (hc : s.Census) (h : s.Outcome)
    (hs : s.step f l = some (.ok s')) : s'.Outcome := by
  obtain ⟨a, sd, k, R, ha, heq, hp, hp', -⟩ := step_ok hs
  have h' : sd.OutcomeOf s'.frames := ((h.perm hp).act (hc.perm hp) ha).perm hp'.symm
  rw [Outcome, heq]
  exact h'.congr rfl rfl rfl rfl rfl rfl rfl rfl

theorem outcome_init (transaction forceConsistentRead allowLocalCallsInCurrThread : Bool) :
    (Batcher.init transaction forceConsistentRead allowLocalCallsInCurrThread).Outcome where
  had_errors := rfl
  combined_ok _ := rfl
  lookup_failed _ _ _ hm := by simp [init] at hm
  rpcs_ok _ hr := by simp [init] at hr
  finished _ _ hx := by simp [init] at hx
  flushed_empty _ := rfl
  callback_frames _ hx := by simp [init, frames] at hx
  pending_callback _ hm := by simp [init, frames] at hm
  callbacks _ hm := by simp [init] at hm
  callback_ok _ hm := by simp [init] at hm

theorem outcome_reachable {allowed : Batcher → Label → Prop} (h : Reachable f allowed s) :
    s.Outcome :=
  h.invariant outcome_init fun hr hs _ hstep => hs.step (census_reachable hr) hstep

/-- **A flush ends when every op has left `ops_`.**  In every run, whatever the order of the
lookups' answers, of the RPCs' completions and of the checks for the end of the flush: once
`CheckForFinishedFlush` has set `kFlushed`, every admitted op has left `ops_`, its lookup having
failed or the RPC carrying it having passed the critical section of
`RemoveInFlightOpsAfterFlushing`; no RPC holds ops in `ops_`; the error of every failed lookup,
of every RPC that completed with an error, and of every per-row error with an in-range row index
is recorded for its op; and the status handed to the flush callback, pending or delivered, is OK
iff no error was recorded.  (`Abort` cannot come first:
`kAborted` is final.) -/
theorem flush_outcome (h : Reachable f anyStep s) (hfl : s.state = .kFlushed) :
    (∀ x < s.nextOpSequenceNumber, x ∉ s.ops ∧
      ((∃ st, Event.lookupFinished x (.error st) ∈ s.trace) ∨
        ∃ rpc ∈ s.rpcs, x ∈ rpc.ops ∧ rpc.inFlight = false)) ∧
    (∀ rpc ∈ s.rpcs, rpc.inFlight = false ∧
      (rpc.status.ok = false → ∀ x ∈ rpc.ops, (x, rpc.status) ∈ s.errors) ∧
      ∀ e ∈ rpc.perRowErrors, ∀ y, rpc.ops[e.rowIndex]? = some y → (y, e.error) ∈ s.errors) ∧
    (∀ x st, Event.lookupFinished x (.error st) ∈ s.trace → (x, st) ∈ s.errors) ∧
    (s.flushStatus.ok = true ↔ s.errors = []) ∧
    ∀ st, (∃ c ∈ s.frames, c.callbackStatus = some st) ∨ Event.callback st ∈ s.trace →
      (st.ok = true ↔ s.errors = []) := by
  have hc := census_reachable h
  have ho := outcome_reachable h
  have hna : s.state ≠ .kAborted := by rw [hfl]; decide
  have hops := ho.flushed_empty hfl
  refine ⟨fun x hx => ⟨by simp [hops], ?_⟩, fun rpc hrpc => ?_, ho.lookup_failed hna,
    flushStatus_ok ho.had_errors ho.combined_ok, fun st hst => ?_⟩
  · rcases ho.finished hna x hx with hx | hx
    · simp [hops] at hx
    · exact hx
  · have hin := ho.not_inFlight hc hfl hrpc
    exact ⟨hin, (ho.rpcs_ok rpc hrpc).done hin⟩
  · rcases hst with ⟨c, hc, hst⟩ | hst
    · exact ho.pending_callback c hc st hst hfl
    · exact ho.callback_ok st hst hfl

/-- Two writes: one sent in an RPC that completes, one whose lookup fails.  The flush ends with
the failed lookup's error recorded and the callback run with the generic `IOError`. -/
theorem flush_outcome_failed_lookup :
    ∃ s : Batcher, Reachable ⟨false, false, 1⟩ anyStep s ∧ s.state = .kFlushed ∧
      s.nextOpSequenceNumber = 2 ∧ s.errors = [(1, ⟨.kIOError, "a"⟩)] ∧
      s.rpcs.map AsyncRpc.phase = [.done] ∧
      Event.callback ⟨.kIOError, kErrorReachingOutToTServersMsg⟩ ∈ s.trace ∧
      (∀ x < s.nextOpSequenceNumber, x ∉ s.ops ∧
        ((∃ st, Event.lookupFinished x (.error st) ∈ s.trace) ∨
          ∃ rpc ∈ s.rpcs, x ∈ rpc.ops ∧ rpc.inFlight = false)) ∧
      (∀ rpc ∈ s.rpcs, rpc.inFlight = false ∧
        (rpc.status.ok = false → ∀ x ∈ rpc.ops, (x, rpc.status) ∈ s.errors) ∧
        ∀ e ∈ rpc.perRowErrors, ∀ y, rpc.ops[e.rowIndex]? = some y → (y, e.error) ∈ s.errors) ∧
      (∀ x st, Event.lookupFinished x (.error st) ∈ s.trace → (x, st) ∈ s.errors) ∧
      (s.flushStatus.ok = true ↔ s.errors = []) ∧
      ∀ st, (∃ c ∈ s.frames, c.callbackStatus = some st) ∨ Event.callback st ∈ s.trace →
        (st.ok = true ↔ s.errors = []) := by
  have hrun : (Batcher.init false false false).run ⟨false, false, 1⟩
      [.add ⟨.qlWrite, false, .strong, false, 7, .ok "k", false, none⟩,
        .add ⟨.qlWrite, false, .strong, false, 0, .ok "k", false, none⟩, .flushAsync 0,
        .run 0 false, .run 0 false, .lookupFinished 1 (.error ⟨.kIOError, "a"⟩), .run 1 false,
        .run 2 false, .rpcFinished 0 Status.OK [], .rpcStep 0, .rpcStep 0, .rpcStep 0,
        .run 0 false, .run 2 false, .run 2 false, .run 2 false] = some (.ok _) := rfl
  have hr := Reachable.run (.init false false false) (fun _ _ _ => trivial) hrun
  exact ⟨_, hr, rfl, rfl, rfl, rfl, by decide, flush_outcome hr rfl⟩

/-- **The callback can run before an RPC's completion has.**  With a transaction and two RPCs:
both pass the critical section of `RemoveInFlightOpsAfterFlushing`, so `ops_` is empty; the
first runs its unlocked tail (`transaction->Flushed`) and its `CheckForFinishedFlush`, which sets
`kFlushed` and runs the callback with OK, while the second has not yet called
`transaction->Flushed`. -/
theorem flushed_before_rpc_completes :
    ∃ s : Batcher, Reachable ⟨false, false, 1⟩ noAbort s ∧ s.transaction = true ∧
      s.state = .kFlushed ∧ Event.callback Status.OK ∈ s.trace ∧
      ∃ rpc ∈ s.rpcs, rpc.phase = .notifying ∧ Event.flushed rpc.ops rpc.status ∉ s.trace := by
  have hrun : (Batcher.init true false false).run ⟨false, false, 1⟩
      [.add ⟨.qlWrite, false, .strong, false, 2, .ok "k", false, none⟩,
        .add ⟨.qlWrite, false, .strong, false, 1, .ok "k", false, none⟩, .flushAsync 0,
        .run 0 false, .run 0 false, .run 0 false, .run 0 true, .run 2 false, .run 2 false,
        .rpcFinished 0 Status.OK [], .rpcStep 0, .rpcStep 0, .rpcFinished 1 Status.OK [],
        .rpcStep 1, .rpcStep 1, .rpcStep 0, .run 2 false, .run 2 false, .run 2 false,
        .run 2 false] = some (.ok _) := rfl
  have hr : Reachable ⟨false, false, 1⟩ noAbort _ :=
    Reachable.run (.init true false false) (by simp [noAbort, Label.aborts]) hrun
  exact ⟨_, hr, rfl, rfl, by decide, by decide⟩

end Batcher

end ClientBatcher
