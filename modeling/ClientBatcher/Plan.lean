import ClientBatcher.Basic

/-!
# Planning a flush

After `FlushBuffersIfReady` has taken the ops out of `ops_queue_`, it works on its local list
without the lock: it sorts the ops with a comparator on (tablet address, op group, sequence
number), then scans the sorted list and calls `FlushBuffer` on every maximal run of ops with one
tablet and one group, cutting a run early once it holds `kMaxSidecarSlices` ops that return a
sidecar.

* `sortOps` is the sort, `scanRuns` the scan loop and `planFlush` the two together: the list of
  `FlushBuffer` calls, with their flags.
* `planFlush_ops` : the calls' ranges, joined, are the sorted list, a permutation of the ops.
* `mem_planFlush_homogeneous` : every op of a call has the call's tablet and the group of the
  call's first op, which is all `FlushBuffer` looks at.
* `sorted_sortOps` : when the sequence numbers are distinct, the sorted list is strictly
  increasing for the comparator.
-/

namespace ClientBatcher

variable (f : Flags) (heap : ℕ → InFlightOp)

/-- The comparator of the `std::sort` in `FlushBuffersIfReady`. -/
def opLess (lhs rhs : InFlightOp) : Bool :=
  if lhs.tablet = rhs.tablet then
    if getOpGroup f lhs ≠ getOpGroup f rhs then
      decide ((getOpGroup f lhs).toNat < (getOpGroup f rhs).toNat)
    else decide (lhs.sequenceNumber < rhs.sequenceNumber)
  else decide (lhs.tablet < rhs.tablet)

/-- The `std::sort` of `FlushBuffersIfReady`.  On ops with distinct sequence numbers the
comparator is a strict total order, so every sort returns the same list; insertion sort stands
for it. -/
def sortOps (ops : List ℕ) : List ℕ :=
  ops.insertionSort fun a b => opLess f (heap b) (heap a) = false

/-- The test that ends the current run at `it`: another tablet, another group, or
`num_sidecars >= kMaxSidecarSlices`. -/
def cutsRun (start : ℕ) (startGroup : OpGroup) (numSidecars it : ℕ) : Bool :=
  (heap it).tablet != (heap start).tablet || startGroup != getOpGroup f (heap it) ||
    decide (f.maxSidecarSlices ≤ numSidecars)

/-- `1` if the op returns a sidecar. -/
def sidecarOf (it : ℕ) : ℕ := if (heap it).ybOp.returnsSidecar then 1 else 0

/-- The scan loop of `FlushBuffersIfReady`, from the iterator `it` (the head of the list it is
given) to the end.  `start` is the first op of the current run and `startGroup` its group,
`numSidecars` counts the run's sidecar-returning ops, `startAtBegin` says whether `start` is
`ops.begin()`, and `run` holds the ops from `start` up to `it`.  The result is every
`FlushBuffer` call from here on, the one after the loop included. -/
def scanRuns (force allowLocal : Bool) (start : ℕ) (startGroup : OpGroup) (numSidecars : ℕ)
    (startAtBegin : Bool) (run : List ℕ) : List ℕ → List FlushBufferCall
  | [] => [⟨(heap start).tablet, run, allowLocal, force || !startAtBegin⟩]
  | it :: rest =>
    if cutsRun f heap start startGroup numSidecars it then
      -- `it != ops.end()` holds inside the loop
      ⟨(heap start).tablet, run, false, force || !startAtBegin || !(it :: rest).isEmpty⟩ ::
        scanRuns force allowLocal it (getOpGroup f (heap it)) (sidecarOf heap it)
          (startAtBegin && run.isEmpty) [it] rest
    else
      scanRuns force allowLocal start startGroup (numSidecars + sidecarOf heap it) startAtBegin
        (run ++ [it]) rest

/-- The `FlushBuffer` calls of `FlushBuffersIfReady` for its local list `ops`; `force` is its
local `force_consistent_read`. -/
def planFlush (force allowLocal : Bool) (ops : List ℕ) : List FlushBufferCall :=
  match sortOps f heap ops with
  | [] => []
  | first :: sorted =>
    scanRuns f heap force allowLocal first (getOpGroup f (heap first)) 0 true [] (first :: sorted)

variable {f heap}

theorem opLess_iff {a b : InFlightOp} :
    opLess f a b = true ↔ a.tablet < b.tablet ∨ a.tablet = b.tablet ∧
      ((getOpGroup f a).toNat < (getOpGroup f b).toNat ∨
        (getOpGroup f a).toNat = (getOpGroup f b).toNat ∧ a.sequenceNumber < b.sequenceNumber) := by
  have hinj : ∀ g h : OpGroup, g.toNat = h.toNat → g = h := by
    intro g h; cases g <;> cases h <;> simp [OpGroup.toNat]
  unfold opLess
  split_ifs with ht hg
  · have : (getOpGroup f a).toNat ≠ (getOpGroup f b).toNat := fun h => hg (hinj _ _ h)
    simp only [decide_eq_true_eq]; omega
  · have := congrArg OpGroup.toNat (not_not.1 hg)
    simp only [decide_eq_true_eq]; omega
  · simp only [decide_eq_true_eq]; omega

/-- **The comparator is fit for `std::sort`.**  Whatever the flags, the comparator of
`FlushBuffersIfReady` is a strict weak order on ops, as `std::sort` requires of it:
irreflexive, transitive, and with two ops incomparable only when they agree on tablet, group and
sequence number. -/
theorem opLess_isStrictWeakOrder :
    IsStrictWeakOrder InFlightOp fun a b => opLess f a b = true where
  irrefl a := by rw [opLess_iff]; omega
  trans a b c := by simp only [opLess_iff]; omega
  incomp_trans a b c := by simp only [opLess_iff]; omega

theorem scanRuns_ops (force allowLocal : Bool) :
    ∀ (rest : List ℕ) (start : ℕ) (g : OpGroup) (n : ℕ) (b : Bool) (run : List ℕ),
      (scanRuns f heap force allowLocal start g n b run rest).flatMap (·.ops) = run ++ rest
  | [], _, _, _, _, _ => by simp [scanRuns]
  | it :: rest, start, g, n, b, run => by
    cases h : cutsRun f heap start g n it <;> simp [scanRuns, h, scanRuns_ops force allowLocal rest]

theorem sortOps_perm (ops : List ℕ) : (sortOps f heap ops).Perm ops :=
  List.perm_insertionSort _ _

/-- **The calls cover the ops.**  Joined in order, the ranges of the `FlushBuffer` calls are
the sorted list. -/
theorem planFlush_ops (force allowLocal : Bool) (ops : List ℕ) :
    (planFlush f heap force allowLocal ops).flatMap (·.ops) = sortOps f heap ops := by
  unfold planFlush
  split
  · simp [*]
  · rename_i first sorted h
    rw [scanRuns_ops, List.nil_append, h]

theorem scanRuns_homogeneous (force allowLocal : Bool) :
    ∀ (rest : List ℕ) (start : ℕ) (g : OpGroup) (n : ℕ) (b : Bool) (run : List ℕ),
      (∀ a ∈ run, (heap a).tablet = (heap start).tablet ∧ getOpGroup f (heap a) = g) →
      ∀ c ∈ scanRuns f heap force allowLocal start g n b run rest, ∀ a ∈ c.ops,
        (heap a).tablet = c.tablet ∧ ∀ a' ∈ c.ops, getOpGroup f (heap a) = getOpGroup f (heap a')
  | [], start, g, n, b, run, hrun => by
    simp only [scanRuns, List.mem_singleton]
    rintro c rfl a ha
    exact ⟨(hrun a ha).1, fun a' ha' => (hrun a ha).2.trans (hrun a' ha').2.symm⟩
  | it :: rest, start, g, n, b, run, hrun => by
    unfold scanRuns
    cases hcut : cutsRun f heap start g n it
    · refine scanRuns_homogeneous force allowLocal rest start g _ b _ ?_
      simp only [cutsRun, Bool.or_eq_false_iff, bne_eq_false_iff_eq,
        decide_eq_false_iff_not] at hcut
      simpa [or_imp, forall_and, hcut.1.1, hcut.1.2] using hrun
    · rintro c (_ | ⟨_, hc⟩)
      · exact fun a ha => ⟨(hrun a ha).1, fun a' ha' => (hrun a ha).2.trans (hrun a' ha').2.symm⟩
      · exact scanRuns_homogeneous force allowLocal rest it _ _ _ [it] (by simp) c hc

/-- **Each call is homogeneous.**  `FlushBuffer` takes the tablet and the op group of its first
op only; every op of the call has that tablet and that group. -/
theorem mem_planFlush_homogeneous {force allowLocal : Bool} {ops : List ℕ} {c : FlushBufferCall}
    (hc : c ∈ planFlush f heap force allowLocal ops) {a : ℕ} (ha : a ∈ c.ops) :
    (heap a).tablet = c.tablet ∧ ∀ a' ∈ c.ops, getOpGroup f (heap a) = getOpGroup f (heap a') := by
  unfold planFlush at hc
  split at hc
  · simp at hc
  · exact scanRuns_homogeneous force allowLocal _ _ _ _ _ [] (by simp) c hc a ha

/-- On ops with distinct sequence numbers, `sortOps` orders them strictly by the comparator. -/
theorem sorted_sortOps {ops : List ℕ}
    (hseq : ∀ a ∈ ops, ∀ b ∈ ops, (heap a).sequenceNumber = (heap b).sequenceNumber → a = b)
    (hnd : ops.Nodup) :
    (sortOps f heap ops).Sorted fun a b => opLess f (heap a) (heap b) = true := by
  let r : ℕ → ℕ → Prop := fun a b => opLess f (heap b) (heap a) = false
  haveI : IsTotal ℕ r :=
    ⟨fun a b => by simp only [r, Bool.eq_false_iff, ne_eq, opLess_iff]; omega⟩
  haveI : IsTrans ℕ r :=
    ⟨fun a b c => by simp only [r, Bool.eq_false_iff, ne_eq, opLess_iff]; omega⟩
  have hp : (sortOps f heap ops).Perm ops := sortOps_perm ops
  refine ((List.sorted_insertionSort r ops).and (hp.nodup_iff.2 hnd)).imp_of_mem ?_
  intro a b ha hb ⟨hab, hne⟩
  have := hseq a (hp.subset ha) b (hp.subset hb)
  simp only [r, Bool.eq_false_iff, ne_eq, opLess_iff] at hab ⊢
  omega

end ClientBatcher
