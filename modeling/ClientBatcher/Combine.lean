import ClientBatcher.Outcome

/-!
# The combined error

`CombineErrorUnlocked` hands every error of a batch to the error collector and, with
`FLAGS_combine_batcher_errors`, folds it into `combined_error_`: the first error is kept until an
error of another code comes, which turns it into `Combined("Multiple failures")` for good.  Every
error of a run goes through it: a failed lookup, the ops of an RPC that failed, a per-row error,
and the ops `Abort` fails.

* `foldl_combineError` : the rule folded from an error, in closed form.
* `code_foldl_combineError_OK` : folded from OK over errors, the code is their common code if they
  share one, and `Combined` otherwise; so it does not depend on their order
  (`code_foldl_combineError_OK_perm`).
* `combined_of_errors` : in every run, `combined_error_` is the rule folded over the statuses the
  error collector holds, in the order they were recorded (`Records` is what one action does to
  the two).
* `combined_error_visits` : along every run, an error in `combined_error_` stays, or turns into
  `Combined` for good.
* `flush_status_without_combine` : without the flag, `combined_error_` stays OK and the flush
  reports one generic `IOError` for any errors.
* `combined_error_order` : with the flag and non-OK errors, `combined_error_` is OK iff no error
  was recorded, the first error while all share its code, and `Combined` otherwise; its code and
  that of the status `CheckForFinishedFlush` hands to the callback are the same in every run that
  recorded the same statuses in another order.

The errors are taken to be non-OK, as every caller passes them.  An OK status handed to
`CombineErrorUnlocked` (`Abort(Status::OK())`, say) still counts for `had_errors_`, and an OK
status after an error turns `combined_error_` into `Combined`, so that the order matters.
-/

namespace ClientBatcher

namespace Batcher

/-- `combined_error_` once `CombineErrorUnlocked` has recorded `status`: combined by the rule with
`FLAGS_combine_batcher_errors`, unchanged without it. -/
def combinedErrorAfter (f : Flags) (combined status : Status) : Status :=
  if f.combineBatcherErrors then combineError combined status else combined

theorem combinedErrorAfter_of_combine {f : Flags} (hf : f.combineBatcherErrors = true) :
    combinedErrorAfter f = combineError := by
  funext c st
  simp [combinedErrorAfter, hf]

theorem combinedErrorAfter_of_not_combine {f : Flags} (hf : f.combineBatcherErrors = false) :
    combinedErrorAfter f = fun c _ => c := by
  funext c st
  simp [combinedErrorAfter, hf]

/-! ### The rule -/

theorem combineError_of_ok {c : Status} (hc : c.ok = true) (st : Status) :
    combineError c st = st := by
  simp [combineError, hc]

/-- Folded from an error `c`, the rule keeps `c`, unless `c` is not yet `Combined` and an error of
another code comes. -/
theorem foldl_combineError {c : Status} (hc : c.ok = false) : ∀ l : List Status,
    l.foldl combineError c =
      if c.IsCombined = false ∧ ∃ st ∈ l, c.code ≠ st.code then ⟨.kCombined, "Multiple failures"⟩
      else c
  | [] => by simp
  | st :: l => by
    rw [List.foldl_cons]
    by_cases h : c.IsCombined = false ∧ c.code ≠ st.code
    · have hst : combineError c st = ⟨.kCombined, "Multiple failures"⟩ := by
        simp [combineError, hc, h.1, h.2]
      rw [hst, foldl_combineError (c := ⟨.kCombined, "Multiple failures"⟩) rfl l,
        if_neg (by simp [Status.IsCombined]),
        if_pos ⟨h.1, st, List.mem_cons_self _ _, h.2⟩]
    · have hst : combineError c st = c := by
        rw [not_and_or, not_not] at h
        rcases h with h | h <;> simp [combineError, hc, h]
      rw [hst, foldl_combineError hc l]
      simp only [List.mem_cons, exists_eq_or_imp]
      exact if_congr ⟨fun ⟨h₁, h₂⟩ => ⟨h₁, .inr h₂⟩,
        fun ⟨h₁, h₂⟩ => ⟨h₁, h₂.resolve_left fun h₂ => h ⟨h₁, h₂⟩⟩⟩ rfl rfl

/-- Folded from OK, the first error is kept until an error of another code turns it into
`Combined`. -/
theorem foldl_combineError_OK_cons {st : Status} (hst : st.ok = false) (l : List Status) :
    (st :: l).foldl combineError Status.OK =
      if st.IsCombined = false ∧ ∃ st' ∈ l, st.code ≠ st'.code then
        ⟨.kCombined, "Multiple failures"⟩
      else st := by
  rw [List.foldl_cons, combineError_of_ok Status.ok_OK, foldl_combineError hst]

theorem ok_foldl_combineError_OK {l : List Status} (hl : ∀ st ∈ l, st.ok = false) :
    (l.foldl combineError Status.OK).ok = l.isEmpty := by
  cases l with
  | nil => rfl
  | cons st l =>
    rw [foldl_combineError_OK_cons (hl st (List.mem_cons_self _ _))]
    split
    · rfl
    · exact hl st (List.mem_cons_self _ _)

/-- Folded from OK over errors, the code is the code `c` of any of them if they all share it, and
`Combined` otherwise. -/
theorem code_foldl_combineError_OK {l : List Status} (hl : ∀ st ∈ l, st.ok = false) {c : Status}
    (hc : c ∈ l) :
    (l.foldl combineError Status.OK).code =
      if ∀ st ∈ l, st.code = c.code then c.code else .kCombined := by
  obtain _ | ⟨st, l⟩ := l
  · cases hc
  rw [foldl_combineError_OK_cons (hl st (List.mem_cons_self _ _))]
  by_cases hall : ∀ x ∈ st :: l, x.code = c.code
  · have hsame : ¬∃ st' ∈ l, st.code ≠ st'.code := fun ⟨x, hx, hne⟩ =>
      hne ((hall st (List.mem_cons_self _ _)).trans (hall x (List.mem_cons_of_mem _ hx)).symm)
    rw [if_neg fun h => hsame h.2, if_pos hall, hall st (List.mem_cons_self _ _)]
  · rw [if_neg hall]
    split
    · rfl
    · rename_i hkeep
      by_cases hcomb : st.IsCombined = false
      · -- every op has the first one's code, `c` among them
        have hsame : ∀ x ∈ st :: l, x.code = st.code := by
          simp only [List.mem_cons, forall_eq_or_imp, true_and]
          exact fun x hx => by_contra fun hne => hkeep ⟨hcomb, x, hx, Ne.symm hne⟩
        exact absurd (fun x hx => (hsame x hx).trans (hsame c hc).symm) hall
      · simpa [Status.IsCombined] using hcomb

/-- **Order independence of the code**: a permutation of the errors gives the same code. -/
theorem code_foldl_combineError_OK_perm {l l' : List Status} (hp : l.Perm l')
    (hl : ∀ st ∈ l, st.ok = false) :
    (l.foldl combineError Status.OK).code = (l'.foldl combineError Status.OK).code := by
  cases l with
  | nil => rw [← hp.nil_eq]
  | cons c l =>
    have hc := List.mem_cons_self c l
    rw [code_foldl_combineError_OK hl hc,
      code_foldl_combineError_OK (fun st h => hl st (hp.mem_iff.2 h)) (hp.mem_iff.1 hc)]
    simp only [hp.mem_iff]

/-- With an OK status among them the order matters: OK then an error gives the error, the error
then OK gives `Combined`. -/
example : ([Status.OK, ⟨.kIOError, ""⟩].foldl combineError Status.OK).code ≠
    ([⟨.kIOError, ""⟩, Status.OK].foldl combineError Status.OK).code := by
  decide

/-! ### Recording errors -/

/-- `sd`'s errors are `s`'s with the errors `l` recorded after them, and `combined_error_` has
recorded their statuses. -/
def Records (f : Flags) (s sd : Batcher) : Prop :=
  ∃ l : List (ℕ × Status), sd.errors = s.errors ++ l ∧
    sd.combinedError = (l.map (·.2)).foldl (combinedErrorAfter f) s.combinedError

variable {f : Flags} {s sd : Batcher} {k : List Frame}

theorem records_same (he : sd.errors = s.errors) (hc : sd.combinedError = s.combinedError) :
    Records f s sd :=
  ⟨[], by simp [he], by simp [hc]⟩

theorem Records.trans {t : Batcher} (h₁ : Records f s t) (h₂ : Records f t sd) :
    Records f s sd := by
  obtain ⟨l₁, he₁, hc₁⟩ := h₁
  obtain ⟨l₂, he₂, hc₂⟩ := h₂
  exact ⟨l₁ ++ l₂, by rw [he₂, he₁, List.append_assoc],
    by rw [hc₂, hc₁, List.map_append, List.foldl_append]⟩

/-- Records from a state with the same error fields. -/
theorem Records.of_same {t : Batcher} (h : Records f t sd) (he : t.errors = s.errors)
    (hc : t.combinedError = s.combinedError) : Records f s sd :=
  (records_same he hc).trans h

/-- `CombineErrorUnlocked` records one error. -/
theorem Records.combine {op : ℕ} {st : Status} (h : Records f s sd) :
    Records f s (combineErrorUnlocked f op st sd) :=
  h.trans ⟨[(op, st)], rfl, rfl⟩

theorem Records.setRpc {r : ℕ} {rpc : AsyncRpc} (h : Records f s sd) :
    Records f s (sd.setRpc r rpc) :=
  h

theorem Records.foldl_combine {st : Status} :
    ∀ (l : List ℕ) {t : Batcher}, Records f s t →
      Records f s (l.foldl (fun t op => combineErrorUnlocked f op st t) t)
  | [], _, h => h
  | _ :: l, _, h => Records.foldl_combine l h.combine

theorem markAllFailed_records {st : Status} : ∀ {l : List ℕ} {s s' : Batcher},
    markAllFailed f st l s = .ok s' → Records f s s'
  | [], s, s', h => by cases h; exact records_same rfl rfl
  | op :: rest, s, s', h => by
    simp only [markAllFailed] at h
    split at h
    · rename_i s₁ h₁
      obtain ⟨-, rfl⟩ := markInFlightOpFailedUnlocked_ok.1 h₁
      refine Records.trans ?_ (markAllFailed_records h)
      exact (records_same rfl rfl).combine
    · cases h

theorem abort_records {st : Status} (h : s.abort f st = .ok (sd, k)) : Records f s sd :=
  (markAllFailed_records (map_pair_ok.1 h).1).of_same rfl rfl

theorem LookupEffect.records {op : ℕ} {r : LookupResult} (hl : LookupEffect f op r s sd k) :
    Records f s sd := by
  cases hl
  case found => exact records_same rfl rfl
  all_goals exact (records_same rfl rfl).combine

/-- **What an action does to the errors.**  It records errors through `CombineErrorUnlocked`
only. -/
theorem Effect.records {a : Action} (ha : Effect f s a sd k) : Records f s sd := by
  cases ha
  case abort ha => exact abort_records ha
  case transactionFailed ha => exact (abort_records ha).of_same rfl rfl
  case lookupFinished hl => exact hl.records.of_same rfl rfl
  case addTailFound hl => exact hl.records
  case rpcFailed => exact (Records.foldl_combine _ (records_same rfl rfl)).setRpc
  case rpcRowError => exact (records_same rfl rfl).combine.setRpc
  case rpcRemoved hrm =>
    obtain ⟨ops, rfl, -⟩ := removeInFlightOpsAfterFlushing_ok hrm
    exact records_same rfl rfl
  all_goals exact records_same rfl rfl

theorem step_records {s s' : Batcher} {l : Label} (h : s.step f l = some (.ok s')) :
    Records f s s' := by
  obtain ⟨a, sd, k, R, ha, heq, -⟩ := step_ok h
  rw [heq]
  exact ha.records.trans (records_same rfl rfl)

/-- **`combined_error_` in every run**: the rule of `CombineErrorUnlocked`, folded from OK over the
statuses of the recorded errors, in the order they were recorded. -/
theorem combined_of_errors {allowed : Batcher → Label → Prop} (h : Reachable f allowed s) :
    s.combinedError = (s.errors.map (·.2)).foldl (combinedErrorAfter f) Status.OK :=
  h.invariant (P := fun t => t.combinedError = (t.errors.map (·.2)).foldl (combinedErrorAfter f)
    Status.OK) (fun _ _ _ => rfl) fun _ hs _ hstep => by
      obtain ⟨l, he, hc⟩ := step_records hstep
      rw [hc, he, hs, List.map_append, List.foldl_append]

/-- With `FLAGS_combine_batcher_errors`, `combined_error_` is `combineError` folded over the
recorded statuses. -/
theorem combined_of_errors_of_combine (hf : f.combineBatcherErrors = true)
    {allowed : Batcher → Label → Prop} (h : Reachable f allowed s) :
    s.combinedError = (s.errors.map (·.2)).foldl combineError Status.OK := by
  rw [combined_of_errors h, combinedErrorAfter_of_combine hf]

/-! ### `combined_error_` along a run -/

/-- How `combined_error_` may move: an error stays, or, if not yet `Combined`, becomes
`Combined("Multiple failures")`. -/
def CombinedMoves (c c' : Status) : Prop :=
  c.ok = false → c' = c ∨ (c.IsCombined = false ∧ c' = ⟨.kCombined, "Multiple failures"⟩)

theorem combinedMoves_trans {c c' c'' : Status} (h₁ : CombinedMoves c c')
    (h₂ : CombinedMoves c' c'') : CombinedMoves c c'' := fun hc => by
  rcases h₁ hc with rfl | ⟨hcomb, rfl⟩
  · exact h₂ hc
  · rcases h₂ rfl with h | ⟨h, -⟩
    · exact .inr ⟨hcomb, h⟩
    · cases h

/-- Whatever errors a step records, `combined_error_` moves by `CombinedMoves`. -/
theorem step_combinedMoves {s s' : Batcher} {l : Label} (h : s.step f l = some (.ok s')) :
    CombinedMoves s.combinedError s'.combinedError := fun hc => by
  obtain ⟨l, -, hce⟩ := step_records h
  rw [hce]
  cases hf : f.combineBatcherErrors
  · exact .inl (by rw [combinedErrorAfter_of_not_combine hf, List.foldl_fixed])
  · rw [combinedErrorAfter_of_combine hf, foldl_combineError hc]
    split_ifs with hm
    · exact .inr ⟨hm.1, rfl⟩
    · exact .inl rfl

/-- **`combined_error_` never recovers.**  Along every run, from any state and whatever
the flags and the statuses recorded: once `combined_error_` is an error, every later
value is that error or `Combined("Multiple failures")`, the latter only if the error was
not already `Combined`; so a `Combined` error is kept to the end. -/
theorem combined_error_visits (s : Batcher) (ls : List Label) :
    ((s.visits f ls).map (·.combinedError)).Pairwise fun c c' =>
      c.ok = false → c' = c ∨ (c.IsCombined = false ∧ c' = ⟨.kCombined, "Multiple failures"⟩) := by
  haveI : IsTrans Status CombinedMoves := ⟨fun _ _ _ => combinedMoves_trans⟩
  show List.Pairwise CombinedMoves _
  exact List.chain'_iff_pairwise.1 (List.chain'_map _ |>.2
    (chain'_visits (fun _ _ _ h => step_combinedMoves h) s ls))

/-- **The status of a flush without `FLAGS_combine_batcher_errors`.**  In every run
`combined_error_` stays OK, and the status `CheckForFinishedFlush` hands to the
callback is OK if no error was recorded and `IOError(kErrorReachingOutToTServersMsg)`
otherwise, whatever the errors were. -/
theorem flush_status_without_combine (hf : f.combineBatcherErrors = false)
    {allowed : Batcher → Label → Prop} (h : Reachable f allowed s) :
    s.combinedError = Status.OK ∧ s.flushStatus =
      if s.errors = [] then Status.OK else ⟨.kIOError, kErrorReachingOutToTServersMsg⟩ := by
  have hce : s.combinedError = Status.OK := by
    rw [combined_of_errors h, combinedErrorAfter_of_not_combine hf, List.foldl_fixed]
  refine ⟨hce, ?_⟩
  rw [flushStatus, hce, (outcome_reachable h).had_errors]
  by_cases he : s.errors = [] <;> simp [he]

/-- A failed lookup without the flag. -/
theorem flush_status_without_combine_failed_lookup :
    ∃ s : Batcher, (⟨false, false, 1⟩ : Flags).combineBatcherErrors = false ∧
      Reachable ⟨false, false, 1⟩ anyStep s ∧ s.errors ≠ [] ∧
      s.combinedError = Status.OK ∧ s.flushStatus =
        if s.errors = [] then Status.OK else ⟨.kIOError, kErrorReachingOutToTServersMsg⟩ := by
  have hrun : (Batcher.init false false false).run ⟨false, false, 1⟩
      [.add ⟨.qlWrite, false, .strong, false, 0, .ok "k", false, none⟩, .run 0 false,
        .lookupFinished 0 (.error ⟨.kIOError, "a"⟩)] = some (.ok _) := rfl
  have hr := Reachable.run (.init false false false) (fun _ _ _ => trivial) hrun
  exact ⟨_, rfl, hr, List.cons_ne_nil _ _, flush_status_without_combine rfl hr⟩

section Combined

variable (hf : f.combineBatcherErrors = true) (h : Reachable f anyStep s)
  (hl : ∀ e ∈ s.errors, e.2.ok = false)
include hf h hl

theorem combinedError_ok_iff : s.combinedError.ok = true ↔ s.errors = [] := by
  rw [combined_of_errors_of_combine hf h, ok_foldl_combineError_OK (List.forall_mem_map.2 hl)]
  simp [List.isEmpty_iff]

/-- The status `CheckForFinishedFlush` hands to the callback: OK without errors, else
`combined_error_`. -/
theorem flushStatus_eq_combined :
    s.flushStatus = if s.errors = [] then Status.OK else s.combinedError := by
  have hce := combinedError_ok_iff hf h hl
  have hh := (outcome_reachable h).had_errors
  unfold flushStatus
  by_cases he : s.errors = []
  · simp [he, hce.2 he, hh]
  · simp [he, Bool.eq_false_iff.2 fun hok => he (hce.1 hok)]

end Combined

/-- **The combined error.**  With `FLAGS_combine_batcher_errors` and non-OK errors, in every run:
`combined_error_` is OK iff no error was recorded; it is the first error recorded while every
error has that one's code, and it has code `Combined` otherwise.  So its code, and that of the
status `CheckForFinishedFlush` hands to the flush callback, is the same in every run that
recorded the same statuses in another order: whatever the order of the lookups' failures, the
RPCs' completions, their per-row errors and `Abort`. -/
theorem combined_error_order (hf : f.combineBatcherErrors = true) (h : Reachable f anyStep s)
    (hl : ∀ e ∈ s.errors, e.2.ok = false) :
    (s.combinedError.ok = true ↔ s.errors = []) ∧
    (∀ e ∈ s.errors.head?, (∀ e' ∈ s.errors, e'.2.code = e.2.code) → s.combinedError = e.2) ∧
    (∀ e ∈ s.errors.head?, (∃ e' ∈ s.errors, e'.2.code ≠ e.2.code) →
      s.combinedError.code = .kCombined) ∧
    ∀ s', Reachable f anyStep s' → (s'.errors.map (·.2)).Perm (s.errors.map (·.2)) →
      s'.combinedError.code = s.combinedError.code ∧ s'.flushStatus.code = s.flushStatus.code := by
  have hl' : ∀ st ∈ s.errors.map (·.2), st.ok = false := List.forall_mem_map.2 hl
  refine ⟨combinedError_ok_iff hf h hl, fun e he hall => ?_, fun e he hne => ?_,
    fun s' h' hp => ?_⟩
  · obtain ⟨rest, hrest⟩ := List.head?_eq_some_iff.1 he
    rw [combined_of_errors_of_combine hf h, hrest, List.map_cons,
      foldl_combineError_OK_cons (hl e (by simp [hrest])),
      if_neg]
    rintro ⟨-, x, hx, hne⟩
    obtain ⟨y, hy, rfl⟩ := List.mem_map.1 hx
    exact hne (hall y (by simp [hrest, hy])).symm
  · have hmem : e.2 ∈ s.errors.map (·.2) :=
      List.mem_map_of_mem _ (List.mem_of_mem_head? he)
    rw [combined_of_errors_of_combine hf h, code_foldl_combineError_OK hl' hmem, if_neg]
    obtain ⟨e', he', hne⟩ := hne
    exact fun hall => hne (hall _ (List.mem_map_of_mem _ he'))
  · have hl's : ∀ e ∈ s'.errors, e.2.ok = false := fun e he =>
      hl' e.2 (hp.mem_iff.1 (List.mem_map_of_mem _ he))
    have hcode : s'.combinedError.code = s.combinedError.code := by
      rw [combined_of_errors_of_combine hf h', combined_of_errors_of_combine hf h]
      exact code_foldl_combineError_OK_perm hp (List.forall_mem_map.2 hl's)
    have hnil : s'.errors = [] ↔ s.errors = [] := by
      rw [← List.length_eq_zero, ← List.length_eq_zero, ← List.length_map s'.errors (·.2),
        hp.length_eq, List.length_map]
    refine ⟨hcode, ?_⟩
    rw [flushStatus_eq_combined hf h' hl's, flushStatus_eq_combined hf h hl]
    by_cases he : s.errors = []
    · rw [if_pos (hnil.2 he), if_pos he]
    · rw [if_neg (mt hnil.1 he), if_neg he, hcode]

/-- Two lookups that fail with different codes. -/
theorem combined_error_order_two_lookups :
    ∃ s : Batcher, (⟨false, true, 1⟩ : Flags).combineBatcherErrors = true ∧
      Reachable ⟨false, true, 1⟩ anyStep s ∧ (∀ e ∈ s.errors, e.2.ok = false) ∧
      (s.combinedError.ok = true ↔ s.errors = []) ∧
      (∀ e ∈ s.errors.head?, (∀ e' ∈ s.errors, e'.2.code = e.2.code) → s.combinedError = e.2) ∧
      (∀ e ∈ s.errors.head?, (∃ e' ∈ s.errors, e'.2.code ≠ e.2.code) →
        s.combinedError.code = .kCombined) ∧
      ∀ s', Reachable ⟨false, true, 1⟩ anyStep s' →
        (s'.errors.map (·.2)).Perm (s.errors.map (·.2)) →
        s'.combinedError.code = s.combinedError.code ∧
          s'.flushStatus.code = s.flushStatus.code := by
  have hrun : (Batcher.init false false false).run ⟨false, true, 1⟩
      [.add ⟨.qlWrite, false, .strong, false, 0, .ok "k", false, none⟩,
        .add ⟨.qlWrite, false, .strong, false, 0, .ok "k", false, none⟩, .run 0 false,
        .run 0 false, .lookupFinished 0 (.error ⟨.kIOError, "a"⟩),
        .lookupFinished 1 (.error ⟨.kTimedOut, "b"⟩)] = some (.ok _) := rfl
  have hr := Reachable.run (.init false false false) (fun _ _ _ => trivial) hrun
  refine ⟨_, rfl, hr, ?hl, combined_error_order rfl hr ?hl⟩
  decide

end Batcher

end ClientBatcher
