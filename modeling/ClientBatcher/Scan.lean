import Mathlib.Data.List.SplitBy
import ClientBatcher.Ops

/-!
# The ranges and flags of a flush

`FlushBuffersIfReady` scans its sorted local list and calls `FlushBuffer` on `[start, it)` each
time `it` has another tablet or another group than `start`, or the range already holds
`kMaxSidecarSlices` ops that return a sidecar; the range left at the end goes to one last call.

* `referenceChunks` is the chunking a reader of the loop expects: the maximal blocks of
  consecutive ops with one tablet and one group (`List.splitBy`), each cut greedily right after
  the op that brings its count of sidecar-returning ops to `kMaxSidecarSlices`, when more ops of
  the block follow.
* `flush_ranges_reference` : with `kMaxSidecarSlices ≥ 1`, the ranges the scan passes to
  `FlushBuffer` are that chunking of the sorted list; they are non-empty, cover the list in
  order, are homogeneous, hold at most `kMaxSidecarSlices` sidecar ops each, and split a block
  only where the cap is reached.  `scanRuns_ranges` is the same from any state of the loop.
* `flush_call_flags` : every call of one `FlushBuffersIfReady` gets `need_consistent_read` iff the
  batch forces consistent reads, has a transaction, or makes two calls or more; only the last
  call may get `allow_local_calls_in_curr_thread_`.

Both take `kMaxSidecarSlices ≥ 1`, as the constant of `rpc::CallResponse` is: at `0` the first op
already ends a range, and the first call gets an empty one (`planFlush_head_of_cap_zero`), which
`FlushBuffer`'s `CHECK(begin != end)` rejects.
-/

namespace ClientBatcher

variable (f : Flags) (heap : ℕ → InFlightOp)

/-- Two ops are in one block: the same tablet and the same `GetOpGroup`. -/
def sameBlock (a b : ℕ) : Bool :=
  decide ((heap a).tablet = (heap b).tablet ∧ getOpGroup f (heap a) = getOpGroup f (heap b))

/-- The ops of a range that return a sidecar: what `num_sidecars` counts. -/
def sidecars (run : List ℕ) : ℕ :=
  run.countP fun a => (heap a).ybOp.returnsSidecar

/-- The greedy chunking of one block, with `count` sidecar ops in the open chunk `chunk`: a chunk
ends right after the op that brings its count to `kMaxSidecarSlices`, when more ops follow. -/
def chunkBlock (count : ℕ) (chunk : List ℕ) : List ℕ → List (List ℕ)
  | [] => [chunk]
  | a :: rest =>
    if (heap a).ybOp.returnsSidecar ∧ count + 1 = f.maxSidecarSlices ∧ rest ≠ [] then
      (chunk ++ [a]) :: chunkBlock 0 [] rest
    else chunkBlock (count + sidecarOf heap a) (chunk ++ [a]) rest

/-- The reference chunking of a list of ops: its maximal blocks of consecutive ops with one
tablet and one group, each chunked greedily. -/
def referenceChunks (ops : List ℕ) : List (List ℕ) :=
  (ops.splitBy (sameBlock f heap)).flatMap (chunkBlock f heap 0 [])

/-- The `[begin, end)` ranges that `FlushBuffersIfReady` passes to `FlushBuffer`, in order. -/
def flushRanges (force allowLocal : Bool) (ops : List ℕ) : List (List ℕ) :=
  (planFlush f heap force allowLocal ops).map (·.ops)

variable {f heap}

/-! ### Blocks -/

theorem sameBlock_self (a : ℕ) : sameBlock f heap a a = true := by
  simp [sameBlock]

/-- An op of `a`'s block has the same block as `a`. -/
theorem sameBlock_congr {a b : ℕ} (h : sameBlock f heap a b = true) :
    sameBlock f heap b = sameBlock f heap a := by
  simp only [sameBlock, decide_eq_true_eq] at h
  funext x
  simp only [sameBlock, h.1, h.2]

theorem sameBlock_trans {a b c : ℕ} (hab : sameBlock f heap a b = true)
    (hbc : sameBlock f heap b c = true) : sameBlock f heap a c = true := by
  rwa [sameBlock_congr hab] at hbc

/-- The scan's cut test, for the group of `start`: `it` leaves `start`'s block, or the range is
at the cap. -/
theorem cutsRun_eq (start n it : ℕ) :
    cutsRun f heap start (getOpGroup f (heap start)) n it =
      (!sameBlock f heap start it || decide (f.maxSidecarSlices ≤ n)) := by
  have h : ((heap it).tablet != (heap start).tablet ||
      getOpGroup f (heap start) != getOpGroup f (heap it)) = !sameBlock f heap start it := by
    rw [Bool.eq_iff_iff]
    simp only [sameBlock, Bool.or_eq_true, bne_iff_ne, ne_eq, Bool.not_eq_true',
      decide_eq_false_iff_not, not_and_or]
    exact or_congr_left ⟨Ne.symm, Ne.symm⟩
  simp only [cutsRun, h]

/-- `splitBy` by block, from the middle of a block: the block of `prev` takes the ops of its
block that follow. -/
theorem splitBy_loop_sameBlock : ∀ (l : List ℕ) (prev : ℕ) (g : List ℕ) (gs : List (List ℕ)),
    List.splitBy.loop (sameBlock f heap) l prev g gs =
      gs.reverse ++ ((prev :: g).reverse ++ l.takeWhile (sameBlock f heap prev)) ::
        (l.dropWhile (sameBlock f heap prev)).splitBy (sameBlock f heap)
  | [], prev, g, gs => by simp [List.splitBy.loop, List.splitBy]
  | b :: l, prev, g, gs => by
    rw [List.splitBy.loop]
    cases h : sameBlock f heap prev b
    · rw [splitBy_loop_sameBlock l b [] _]
      simp only [List.takeWhile_cons, List.dropWhile_cons, h, Bool.false_eq_true, ↓reduceIte,
        List.append_nil]
      rw [show (b :: l).splitBy (sameBlock f heap) = List.splitBy.loop _ l b [] [] from rfl,
        splitBy_loop_sameBlock l b [] []]
      simp
    · rw [splitBy_loop_sameBlock l b (prev :: g) gs, sameBlock_congr h]
      simp [h]

/-- The reference chunking of a list: the chunks of its first block, then of the rest. -/
theorem referenceChunks_cons (a : ℕ) (l : List ℕ) :
    referenceChunks f heap (a :: l) =
      chunkBlock f heap 0 [] (a :: l.takeWhile (sameBlock f heap a)) ++
        referenceChunks f heap (l.dropWhile (sameBlock f heap a)) := by
  rw [referenceChunks, show (a :: l).splitBy (sameBlock f heap) = List.splitBy.loop _ l a [] [] from
    rfl, splitBy_loop_sameBlock]
  simp [referenceChunks]

/-- One more op for an open chunk below the cap: the chunk stays open, or the op brings it to
the cap and ends it, if more ops follow. -/
theorem chunkBlock_cons {n : ℕ} (hn : n < f.maxSidecarSlices) (run : List ℕ) (a : ℕ)
    (l : List ℕ) :
    chunkBlock f heap n run (a :: l) =
      if n + sidecarOf heap a < f.maxSidecarSlices ∨ l = [] then
        chunkBlock f heap (n + sidecarOf heap a) (run ++ [a]) l
      else (run ++ [a]) :: chunkBlock f heap 0 [] l := by
  have hcap : ((heap a).ybOp.returnsSidecar = true ∧ n + 1 = f.maxSidecarSlices) ↔
      ¬n + sidecarOf heap a < f.maxSidecarSlices := by
    unfold sidecarOf
    cases (heap a).ybOp.returnsSidecar <;> simp <;> omega
  rw [chunkBlock]
  by_cases hl : l = []
  · simp [hl]
  · simp only [hl, ne_eq, not_false_eq_true, and_true, ← and_assoc, hcap, or_false]
    split_ifs <;> rfl

/-! ### The ranges -/

/-- An op adds at most one sidecar op: a range below the cap stays within it. -/
theorem add_sidecarOf_le {n : ℕ} (hn : n < f.maxSidecarSlices) (a : ℕ) :
    n + sidecarOf heap a ≤ f.maxSidecarSlices := by
  unfold sidecarOf; split <;> omega

theorem sidecarOf_le_cap (hpos : 0 < f.maxSidecarSlices) (a : ℕ) :
    sidecarOf heap a ≤ f.maxSidecarSlices :=
  Nat.zero_add (sidecarOf heap a) ▸ add_sidecarOf_le hpos a

/-- **The scan refines the reference chunking**, from any state of the loop: `start` opened the
range `run`, which holds `n ≤ kMaxSidecarSlices` sidecar ops.  The ranges still to come are the
rest of the greedy chunking of `start`'s block, then the reference chunking of what follows the
block. -/
theorem scanRuns_ranges (hpos : 0 < f.maxSidecarSlices) (force allowLocal : Bool) :
    ∀ (rest : List ℕ) (start n : ℕ) (b : Bool) (run : List ℕ), n ≤ f.maxSidecarSlices →
      (scanRuns f heap force allowLocal start (getOpGroup f (heap start)) n b run rest).map
          (·.ops) =
        (if n < f.maxSidecarSlices ∨ rest.takeWhile (sameBlock f heap start) = [] then
          chunkBlock f heap n run (rest.takeWhile (sameBlock f heap start))
        else run :: chunkBlock f heap 0 [] (rest.takeWhile (sameBlock f heap start))) ++
          referenceChunks f heap (rest.dropWhile (sameBlock f heap start))
  | [], start, n, b, run, _ => by simp [scanRuns, chunkBlock, referenceChunks, List.splitBy]
  | it :: r, start, n, b, run, hn => by
    have hit : sidecarOf heap it ≤ f.maxSidecarSlices := sidecarOf_le_cap hpos it
    rw [scanRuns, cutsRun_eq, List.takeWhile_cons, List.dropWhile_cons]
    cases hs : sameBlock f heap start it
    · -- `it` opens the next block
      simp only [Bool.not_false, Bool.true_or, if_true, Bool.false_eq_true, if_false, or_true,
        List.map_cons]
      rw [scanRuns_ranges hpos force allowLocal r it (sidecarOf heap it) _ [it] hit,
        referenceChunks_cons, chunkBlock_cons hpos [] it]
      simp [chunkBlock]
    · simp only [if_true, Bool.not_true, Bool.false_or]
      by_cases hlt : n < f.maxSidecarSlices
      · -- `it` joins the range
        have hle : n + sidecarOf heap it ≤ f.maxSidecarSlices := add_sidecarOf_le hlt it
        simp only [hlt, decide_eq_false (Nat.not_le.2 hlt), Bool.false_eq_true, if_false,
          true_or, if_true]
        rw [scanRuns_ranges hpos force allowLocal r start _ b _ hle, chunkBlock_cons hlt]
      · -- the range is at the cap: `it` opens the next chunk of the block
        have hr := scanRuns_ranges hpos force allowLocal r it (sidecarOf heap it)
          (b && run.isEmpty) [it] hit
        rw [sameBlock_congr hs] at hr
        simp only [decide_eq_true (Nat.le_of_not_lt hlt), if_true, hlt, false_or,
          List.cons_ne_nil, if_false, List.map_cons, List.cons_append, hr, chunkBlock_cons hpos]
        simp

/-- With `kMaxSidecarSlices ≥ 1` the first op ends no range: the scan goes on from the range
`[first]`. -/
theorem planFlush_eq_scanRuns (hpos : 0 < f.maxSidecarSlices) (force allowLocal : Bool)
    {ops sorted : List ℕ} {first : ℕ} (h : sortOps f heap ops = first :: sorted) :
    planFlush f heap force allowLocal ops =
      scanRuns f heap force allowLocal first (getOpGroup f (heap first)) (sidecarOf heap first)
        true [first] sorted := by
  unfold planFlush
  rw [h]
  simp only [scanRuns, cutsRun_eq, sameBlock_self, Bool.not_true, Bool.false_or,
    decide_eq_false (Nat.not_le.2 hpos), Bool.false_eq_true, if_false, Nat.zero_add,
    List.nil_append]

/-- The ranges of a flush are the reference chunking of the sorted list. -/
theorem flushRanges_eq_referenceChunks (hpos : 0 < f.maxSidecarSlices) (force allowLocal : Bool)
    (ops : List ℕ) :
    flushRanges f heap force allowLocal ops = referenceChunks f heap (sortOps f heap ops) := by
  unfold flushRanges
  cases h : sortOps f heap ops with
  | nil => simp [planFlush, h, referenceChunks, List.splitBy]
  | cons first sorted =>
    rw [planFlush_eq_scanRuns hpos force allowLocal h, scanRuns_ranges hpos force allowLocal
      sorted first _ true [first] (sidecarOf_le_cap hpos first), referenceChunks_cons,
      chunkBlock_cons hpos [] first]
    simp

theorem sidecars_append_singleton (run : List ℕ) (a : ℕ) :
    sidecars heap (run ++ [a]) = sidecars heap run + sidecarOf heap a := by
  simp only [sidecars, sidecarOf, List.countP_append, List.countP_cons, List.countP_nil]
  split <;> simp [*]

theorem sidecars_singleton (a : ℕ) : sidecars heap [a] = sidecarOf heap a := by
  have h : sidecars heap ([] ++ [a]) = sidecars heap [] + sidecarOf heap a :=
    sidecars_append_singleton [] a
  simpa [sidecars] using h

/-- Every range of the scan is non-empty and holds at most `kMaxSidecarSlices` sidecar ops: a
range grows only below the cap. -/
theorem scanRuns_bounded (hpos : 0 < f.maxSidecarSlices) (force allowLocal : Bool) :
    ∀ (rest : List ℕ) (start : ℕ) (g : OpGroup) (n : ℕ) (b : Bool) (run : List ℕ), run ≠ [] →
      sidecars heap run = n → n ≤ f.maxSidecarSlices →
      ∀ c ∈ scanRuns f heap force allowLocal start g n b run rest,
        c.ops ≠ [] ∧ sidecars heap c.ops ≤ f.maxSidecarSlices
  | [], start, g, n, b, run, hrun, hsc, hn => by
    simp only [scanRuns, List.mem_singleton]
    rintro c rfl
    exact ⟨hrun, hsc ▸ hn⟩
  | it :: r, start, g, n, b, run, hrun, hsc, hn => by
    rw [scanRuns]
    split
    · rintro c (_ | ⟨_, hc⟩)
      · exact ⟨hrun, hsc ▸ hn⟩
      · exact scanRuns_bounded hpos force allowLocal r it _ _ _ [it] (List.cons_ne_nil _ _)
          (sidecars_singleton it) (sidecarOf_le_cap hpos it) c hc
    · rename_i hcut
      have hlt : n < f.maxSidecarSlices := by
        simp only [cutsRun, Bool.or_eq_true, decide_eq_true_eq, not_or] at hcut
        omega
      exact scanRuns_bounded hpos force allowLocal r start g _ b _ (by simp)
        (by rw [sidecars_append_singleton, hsc]) (add_sidecarOf_le hlt it)

/-- The first range still to come starts with the open range. -/
theorem head_scanRuns (force allowLocal : Bool) :
    ∀ (rest : List ℕ) (start : ℕ) (g : OpGroup) (n : ℕ) (b : Bool) (run : List ℕ),
      ∀ c ∈ (scanRuns f heap force allowLocal start g n b run rest).head?, run <+: c.ops
  | [], start, g, n, b, run => by simp [scanRuns]
  | it :: r, start, g, n, b, run => by
    rw [scanRuns]
    split
    · simp
    · exact fun c hc => (List.prefix_append run [it]).trans
        (head_scanRuns force allowLocal r start g _ b _ c hc)

/-- A range ends inside a block only at the cap: when the last op of a range and the first of the
next are in one block, the range holds `kMaxSidecarSlices` sidecar ops. -/
theorem scanRuns_chain (hpos : 0 < f.maxSidecarSlices) (force allowLocal : Bool) :
    ∀ (rest : List ℕ) (start n : ℕ) (b : Bool) (run : List ℕ),
      (∀ a ∈ run, sameBlock f heap start a = true) → sidecars heap run = n →
      n ≤ f.maxSidecarSlices →
      ((scanRuns f heap force allowLocal start (getOpGroup f (heap start)) n b run rest).map
        (·.ops)).Chain' fun r r' => ∀ a ∈ r.getLast?, ∀ a' ∈ r'.head?,
          sameBlock f heap a a' = true → sidecars heap r = f.maxSidecarSlices
  | [], start, n, b, run, _, _, _ => by simp [scanRuns]
  | it :: r, start, n, b, run, hrun, hsc, hn => by
    rw [scanRuns, cutsRun_eq]
    split
    · rename_i hcut
      rw [List.map_cons, List.chain'_cons']
      refine ⟨?_, scanRuns_chain hpos force allowLocal r it _ _ [it] (by simp [sameBlock_self])
        (sidecars_singleton it) (sidecarOf_le_cap hpos it)⟩
      intro y hy a ha a' ha' hsame
      obtain ⟨c, hc, rfl⟩ := Option.mem_map.1 (List.head?_map _ _ ▸ hy)
      obtain ⟨t, ht⟩ := head_scanRuns force allowLocal r it _ _ _ [it] c hc
      rw [← ht] at ha'
      cases ha'
      have hs : sameBlock f heap start it = true :=
        sameBlock_trans (hrun a (List.mem_of_getLast?_eq_some ha)) hsame
      simp only [hs, Bool.not_true, Bool.false_or, decide_eq_true_eq] at hcut
      show sidecars heap run = _
      omega
    · rename_i hcut
      simp only [Bool.or_eq_true, Bool.not_eq_true', decide_eq_true_eq, not_or,
        Bool.not_eq_false] at hcut
      exact scanRuns_chain hpos force allowLocal r start _ b _
        (fun a ha => (List.mem_append.1 ha).elim (hrun a) fun h => by
          rw [List.mem_singleton.1 h]; exact hcut.1)
        (by rw [sidecars_append_singleton, hsc]) (add_sidecarOf_le (Nat.lt_of_not_le hcut.2) it)

theorem planFlush_bounded (hpos : 0 < f.maxSidecarSlices) {force allowLocal : Bool}
    {ops : List ℕ} : ∀ c ∈ planFlush f heap force allowLocal ops,
      c.ops ≠ [] ∧ sidecars heap c.ops ≤ f.maxSidecarSlices := by
  cases h : sortOps f heap ops with
  | nil => simp [planFlush, h]
  | cons first sorted =>
    rw [planFlush_eq_scanRuns hpos force allowLocal h]
    exact scanRuns_bounded hpos force allowLocal sorted first _ _ true [first]
      (List.cons_ne_nil _ _) (sidecars_singleton first) (sidecarOf_le_cap hpos first)

theorem flushRanges_chain (hpos : 0 < f.maxSidecarSlices) (force allowLocal : Bool)
    (ops : List ℕ) :
    (flushRanges f heap force allowLocal ops).Chain' fun r r' => ∀ a ∈ r.getLast?,
      ∀ a' ∈ r'.head?, sameBlock f heap a a' = true → sidecars heap r = f.maxSidecarSlices := by
  unfold flushRanges
  cases h : sortOps f heap ops with
  | nil => simp [planFlush, h]
  | cons first sorted =>
    rw [planFlush_eq_scanRuns hpos force allowLocal h]
    exact scanRuns_chain hpos force allowLocal sorted first _ true [first]
      (by simp [sameBlock_self]) (sidecars_singleton first) (sidecarOf_le_cap hpos first)

/-- The ops of one call are in one block. -/
theorem mem_planFlush_sameBlock {force allowLocal : Bool} {ops : List ℕ} {c : FlushBufferCall}
    (hc : c ∈ planFlush f heap force allowLocal ops) {a a' : ℕ} (ha : a ∈ c.ops)
    (ha' : a' ∈ c.ops) : sameBlock f heap a a' = true := by
  have h := mem_planFlush_homogeneous hc ha
  simp [sameBlock, h.1, h.2 a' ha', (mem_planFlush_homogeneous hc ha').1]

/-- **The ranges of a flush**, for `kMaxSidecarSlices ≥ 1`: the reference chunking of the sorted
list.  Hence they cover that list once and in order, are non-empty and homogeneous, hold at most
`kMaxSidecarSlices` sidecar ops each, and split a block only where the cap is reached. -/
theorem flush_ranges_reference (hpos : 0 < f.maxSidecarSlices) (force allowLocal : Bool)
    (ops : List ℕ) :
    flushRanges f heap force allowLocal ops = referenceChunks f heap (sortOps f heap ops) ∧
    (flushRanges f heap force allowLocal ops).flatten = sortOps f heap ops ∧
    (∀ r ∈ flushRanges f heap force allowLocal ops, r ≠ [] ∧
      (∀ a ∈ r, ∀ a' ∈ r, sameBlock f heap a a' = true) ∧ sidecars heap r ≤ f.maxSidecarSlices) ∧
    (flushRanges f heap force allowLocal ops).Chain' fun r r' => ∀ a ∈ r.getLast?,
      ∀ a' ∈ r'.head?, sameBlock f heap a a' = true → sidecars heap r = f.maxSidecarSlices := by
  refine ⟨flushRanges_eq_referenceChunks hpos force allowLocal ops, ?_, ?_,
    flushRanges_chain hpos force allowLocal ops⟩
  · rw [flushRanges, ← List.flatMap_def, planFlush_ops]
  · simp only [flushRanges, List.mem_map]
    rintro _ ⟨c, hc, rfl⟩
    exact ⟨(planFlush_bounded hpos c hc).1, fun a ha a' ha' => mem_planFlush_sameBlock hc ha ha',
      (planFlush_bounded hpos c hc).2⟩

/-- Three writes that each return a sidecar: ops 0 and 1 on tablet 1, op 2 on tablet 2. -/
def sidecarWrites (x : ℕ) : InFlightOp :=
  ⟨⟨.qlWrite, false, .strong, true, 0, .ok "k", false, none⟩, "k", .kBufferedToTabletServer,
    if x < 2 then 1 else 2, x⟩

/-- With a cap of one sidecar, the sort puts the three writes in order, and the block of tablet 1
is cut after its first op. -/
theorem flush_ranges_reference_sidecars :
    0 < (⟨false, false, 1⟩ : Flags).maxSidecarSlices ∧
    flushRanges ⟨false, false, 1⟩ sidecarWrites false false [2, 1, 0] = [[0], [1], [2]] ∧
    flushRanges ⟨false, false, 1⟩ sidecarWrites false false [2, 1, 0] =
      referenceChunks ⟨false, false, 1⟩ sidecarWrites
        (sortOps ⟨false, false, 1⟩ sidecarWrites [2, 1, 0]) ∧
    (flushRanges ⟨false, false, 1⟩ sidecarWrites false false [2, 1, 0]).flatten =
      sortOps ⟨false, false, 1⟩ sidecarWrites [2, 1, 0] ∧
    (∀ r ∈ flushRanges ⟨false, false, 1⟩ sidecarWrites false false [2, 1, 0], r ≠ [] ∧
      (∀ a ∈ r, ∀ a' ∈ r, sameBlock ⟨false, false, 1⟩ sidecarWrites a a' = true) ∧
      sidecars sidecarWrites r ≤ (⟨false, false, 1⟩ : Flags).maxSidecarSlices) ∧
    (flushRanges ⟨false, false, 1⟩ sidecarWrites false false [2, 1, 0]).Chain' fun r r' =>
      ∀ a ∈ r.getLast?, ∀ a' ∈ r'.head?,
        sameBlock ⟨false, false, 1⟩ sidecarWrites a a' = true →
          sidecars sidecarWrites r = (⟨false, false, 1⟩ : Flags).maxSidecarSlices :=
  ⟨by decide, rfl, flush_ranges_reference (by decide) false false [2, 1, 0]⟩

/-! ### The flags -/

theorem scanRuns_ne_nil (force allowLocal : Bool) :
    ∀ (rest : List ℕ) (start : ℕ) (g : OpGroup) (n : ℕ) (b : Bool) (run : List ℕ),
      scanRuns f heap force allowLocal start g n b run rest ≠ []
  | [], _, _, _, _, _ => by simp [scanRuns]
  | it :: r, start, g, n, b, run => by
    rw [scanRuns]
    split
    · exact List.cons_ne_nil _ _
    · exact scanRuns_ne_nil force allowLocal r start g _ b _

/-- Only the last call of the scan gets `allow_local_calls_in_curr_thread_`: the calls made in the
loop pass `false`. -/
theorem scanRuns_allowLocal (force allowLocal : Bool) :
    ∀ (rest : List ℕ) (start : ℕ) (g : OpGroup) (n : ℕ) (b : Bool) (run : List ℕ),
      (∀ c ∈ (scanRuns f heap force allowLocal start g n b run rest).dropLast,
        c.allowLocalCallsInCurrThread = false) ∧
      ∀ c ∈ (scanRuns f heap force allowLocal start g n b run rest).getLast?,
        c.allowLocalCallsInCurrThread = allowLocal
  | [], _, _, _, _, _ => by simp [scanRuns]
  | it :: r, start, g, n, b, run => by
    rw [scanRuns]
    split
    · have ih := scanRuns_allowLocal force allowLocal r it (getOpGroup f (heap it))
        (sidecarOf heap it) (b && run.isEmpty) [it]
      obtain ⟨c₁, cs, hcs⟩ := List.exists_cons_of_ne_nil (scanRuns_ne_nil force allowLocal r it
        (getOpGroup f (heap it)) (sidecarOf heap it) (b && run.isEmpty) [it])
      rw [hcs] at ih ⊢
      simp only [List.dropLast_cons₂, List.getLast?_cons_cons, List.mem_cons, forall_eq_or_imp,
        true_and]
      exact ih
    · exact scanRuns_allowLocal force allowLocal r start g _ b _

/-- The scan's `need_consistent_read`, from a non-empty open range: every call gets it iff
`force`, or `start` is past `ops.begin()`, or the scan makes two calls or more.  A call made in
the loop has `it != ops.end()` and is followed by the last call. -/
theorem scanRuns_needConsistentRead (force allowLocal : Bool) :
    ∀ (rest : List ℕ) (start : ℕ) (g : OpGroup) (n : ℕ) (b : Bool) (run : List ℕ), run ≠ [] →
      ∀ c ∈ scanRuns f heap force allowLocal start g n b run rest, c.needConsistentRead =
        (force || !b ||
          decide (2 ≤ (scanRuns f heap force allowLocal start g n b run rest).length))
  | [], _, _, _, _, _, _ => by simp [scanRuns]
  | it :: r, start, g, n, b, run, hrun => by
    rw [scanRuns]
    split
    · have ih := scanRuns_needConsistentRead force allowLocal r it (getOpGroup f (heap it))
        (sidecarOf heap it) (b && run.isEmpty) [it] (List.cons_ne_nil _ _)
      obtain ⟨c₁, cs, hcs⟩ := List.exists_cons_of_ne_nil (scanRuns_ne_nil force allowLocal r it
        (getOpGroup f (heap it)) (sidecarOf heap it) (b && run.isEmpty) [it])
      have hb : (b && run.isEmpty) = false := by simp [List.isEmpty_iff, hrun]
      rw [hcs] at ih ⊢
      simp only [hb, Bool.not_false, Bool.or_true, Bool.true_or] at ih
      simp only [List.mem_cons, forall_eq_or_imp, List.length_cons, List.isEmpty_cons,
        Bool.not_false, Bool.or_true, Nat.le_add_left, decide_True, true_and] at ih ⊢
      exact ih
    · exact scanRuns_needConsistentRead force allowLocal r start g _ b _ (by simp)

theorem planFlush_allowLocal (force allowLocal : Bool) (ops : List ℕ) :
    (∀ c ∈ (planFlush f heap force allowLocal ops).dropLast,
      c.allowLocalCallsInCurrThread = false) ∧
    ∀ c ∈ (planFlush f heap force allowLocal ops).getLast?,
      c.allowLocalCallsInCurrThread = allowLocal := by
  unfold planFlush
  split
  · simp
  · exact scanRuns_allowLocal force allowLocal _ _ _ _ _ _

/-- With `kMaxSidecarSlices ≥ 1` the first op ends no range, so `start != ops.begin()` exactly
when a call was made before: every call of a flush needs a consistent read iff `force` or the
flush makes two calls or more. -/
theorem planFlush_needConsistentRead (hpos : 0 < f.maxSidecarSlices) (force allowLocal : Bool)
    (ops : List ℕ) : ∀ c ∈ planFlush f heap force allowLocal ops, c.needConsistentRead =
      (force || decide (2 ≤ (planFlush f heap force allowLocal ops).length)) := by
  cases h : sortOps f heap ops with
  | nil => simp [planFlush, h]
  | cons first sorted =>
    rw [planFlush_eq_scanRuns hpos force allowLocal h]
    intro c hc
    rw [scanRuns_needConsistentRead force allowLocal _ _ _ _ _ _ (List.cons_ne_nil _ _) c hc,
      Bool.not_true, Bool.or_false]

/-- Why the cap must be positive: at `kMaxSidecarSlices = 0` the first op already ends a range, so
the first call of a non-empty flush gets the empty range `[begin, begin)`, which `FlushBuffer`'s
`CHECK(begin != end)` rejects. -/
theorem planFlush_head_of_cap_zero (h0 : f.maxSidecarSlices = 0) (force allowLocal : Bool)
    {ops sorted : List ℕ} {first : ℕ} (h : sortOps f heap ops = first :: sorted) :
    (planFlush f heap force allowLocal ops).head? =
      some ⟨(heap first).tablet, [], false, true⟩ := by
  simp [planFlush, h, scanRuns, cutsRun, h0]

namespace Batcher

/-- **The flags of the calls of one `FlushBuffersIfReady`**, with `kMaxSidecarSlices ≥ 1`: every
call needs a consistent read iff the batch forces consistent reads, has a transaction, or the
invocation makes two calls or more; only the last call gets `allow_local_calls_in_curr_thread_`,
every earlier one `false`. -/
theorem flush_call_flags (hpos : 0 < f.maxSidecarSlices) {p : Bool} {s sd : Batcher}
    {k : List Frame} (h : s.flushBuffersIfReady f p = (sd, k)) :
    ∃ calls : List FlushBufferCall, k = calls.map Frame.flushBuffer ∧
      (∀ c ∈ calls, c.needConsistentRead =
        (s.forceConsistentRead || s.transaction || decide (2 ≤ calls.length))) ∧
      (∀ c ∈ calls.dropLast, c.allowLocalCallsInCurrThread = false) ∧
      ∀ c ∈ calls.getLast?, c.allowLocalCallsInCurrThread = s.allowLocalCallsInCurrThread := by
  rcases flushBuffersIfReady_cases h with ⟨-, -, rfl⟩ | ⟨-, -, -, -, -, rfl⟩ | ⟨-, -, -, -, rfl⟩
  · exact ⟨[], rfl, by simp⟩
  · exact ⟨[], rfl, by simp⟩
  · exact ⟨_, rfl, planFlush_needConsistentRead hpos _ _ _, planFlush_allowLocal _ _ _⟩

/-- A flushing batch with the three writes queued: its swap makes three calls, all needing a
consistent read, and only the last may run on the current thread. -/
theorem flush_call_flags_three_calls :
    0 < (⟨false, false, 1⟩ : Flags).maxSidecarSlices ∧
    ∃ s : Batcher, s.state = .kFlushing ∧ s.opsQueue = [2, 1, 0] ∧ s.heap = sidecarWrites ∧
      s.allowLocalCallsInCurrThread = true ∧
      (s.flushBuffersIfReady ⟨false, false, 1⟩ false).2.length = 3 ∧
      ∃ calls : List FlushBufferCall,
        (s.flushBuffersIfReady ⟨false, false, 1⟩ false).2 = calls.map Frame.flushBuffer ∧
        (∀ c ∈ calls, c.needConsistentRead =
          (s.forceConsistentRead || s.transaction || decide (2 ≤ calls.length))) ∧
        (∀ c ∈ calls.dropLast, c.allowLocalCallsInCurrThread = false) ∧
        ∀ c ∈ calls.getLast?, c.allowLocalCallsInCurrThread = s.allowLocalCallsInCurrThread :=
  ⟨by decide, { Batcher.init false false true with
      state := .kFlushing, ops := [0, 1, 2], opsQueue := [2, 1, 0], nextOpSequenceNumber := 3,
      heap := sidecarWrites }, rfl, rfl, rfl, rfl, rfl,
    flush_call_flags (by decide) Prod.mk.eta.symm⟩

end Batcher

end ClientBatcher
