import ClientBatcher.Effect

/-!
# The life cycle of a batch

`state_` takes four values.  `FlushAsync` moves it from `kGatheringOps` to `kFlushing`,
`CheckForFinishedFlush` from `kFlushing` to `kFlushed` once `ops_` is empty, and `Abort` sets
`kAborted` whatever it was; no other code writes it.

* `Batcher.Effect.state` : what each action does to `state_`.
* `Batcher.StateMove` : the move of `state_` a step with a given label can make;
  `Batcher.step_state` : every step makes the move of its label.
* `state_visits_chain` : along every run, each step makes the move of its label, and each value
  of `state_` is a move (`BatcherState.Moves`) from the one before; so the values never go back
  in the order `kGatheringOps < kFlushing < kFlushed < kAborted` (`Moves.rank_le`) and
  `kAborted` is never left (`Moves.of_aborted`).
* `flushed_then_aborted` : `kFlushed` is not final: `Abort` after the flush has completed moves
  the batcher to `kAborted`.
* `state_ne_aborted` : in a run without `Abort`, `state_` is never `kAborted`.
-/

namespace ClientBatcher

namespace BatcherState

/-- The position of a value of `state_` in the life cycle. -/
def rank : BatcherState → ℕ
  | kGatheringOps => 0
  | kFlushing => 1
  | kFlushed => 2
  | kAborted => 3

/-- The moves of `state_` that one step can make: none, `FlushAsync`'s, `CheckForFinishedFlush`'s,
or `Abort`'s. -/
def Moves (a b : BatcherState) : Prop :=
  b = a ∨ (a = kGatheringOps ∧ b = kFlushing) ∨ (a = kFlushing ∧ b = kFlushed) ∨ b = kAborted

instance (a b : BatcherState) : Decidable (Moves a b) :=
  inferInstanceAs (Decidable (b = a ∨ _ ∨ _ ∨ _))

theorem Moves.rank_le {a b : BatcherState} (h : Moves a b) : a.rank ≤ b.rank := by
  rcases h with rfl | ⟨rfl, rfl⟩ | ⟨rfl, rfl⟩ | rfl
  · exact le_rfl
  · decide
  · decide
  · cases a <;> decide

theorem Moves.of_aborted {b : BatcherState} (h : Moves kAborted b) : b = kAborted := by
  rcases h with h | ⟨h, -⟩ | ⟨h, -⟩ | h <;> first | exact h | cases h

end BatcherState

namespace Batcher

variable {f : Flags} {s sd : Batcher} {k : List Frame}

/-! ### What an action does to `state_` -/

theorem LookupEffect.state {op : ℕ} {r : LookupResult} (h : LookupEffect f op r s sd k) :
    sd.state = s.state := by
  cases h <;> rfl

theorem abort_state {st : Status} (h : s.abort f st = .ok (sd, k)) : sd.state = .kAborted := by
  obtain ⟨ops, errors, ce, he, rfl, -⟩ := abort_ok h; rfl

/-- **What an action does to `state_`.**  It leaves it; or it is `FlushAsync`, which moves it
from `kGatheringOps` to `kFlushing`; or `CheckForFinishedFlush`, which moves it from `kFlushing`
to `kFlushed`; or it calls `Abort`, which sets `kAborted`. -/
theorem Effect.state {a : Action} (h : Effect f s a sd k) :
    sd.state = s.state ∨
    ((∃ now, a = .enter (.flushAsync now)) ∧ s.state = .kGatheringOps ∧ sd.state = .kFlushing) ∨
    ((∃ p, a = .exec .checkForFinishedFlush p) ∧ s.state = .kFlushing ∧ sd.state = .kFlushed) ∨
    (a.aborts = true ∧ sd.state = .kAborted) := by
  cases h
  case flushAsync hs => exact .inr (.inl ⟨⟨_, rfl⟩, hs, rfl⟩)
  case checkFinished hs _ => exact .inr (.inr (.inl ⟨⟨_, rfl⟩, hs, rfl⟩))
  case abort h => exact .inr (.inr (.inr ⟨rfl, abort_state h⟩))
  case transactionFailed hst h =>
    exact .inr (.inr (.inr ⟨by simp [Action.aborts, Label.aborts, hst], abort_state h⟩))
  case lookupFinished h => exact .inl h.state
  case addTailFound h => exact .inl h.state
  case rpcFailed => exact .inl (by simp [foldl_combineErrorUnlocked])
  case rpcRemoved h =>
    obtain ⟨ops, rfl, -⟩ := removeInFlightOpsAfterFlushing_ok h
    exact .inl rfl
  all_goals exact .inl rfl

/-- The moves of `state_` that a step labelled `l` can make from `s` to `b`: none; `FlushAsync`'s,
from `kGatheringOps` to `kFlushing`; that of a thread whose next frame is
`CheckForFinishedFlush`, from `kFlushing` to `kFlushed`; or, for a step that calls `Abort`, from
any value to `kAborted`. -/
def StateMove (s : Batcher) (l : Label) (b : BatcherState) : Prop :=
  b = s.state ∨
  ((∃ now, l = .flushAsync now) ∧ s.state = .kGatheringOps ∧ b = .kFlushing) ∨
  ((∃ i p rest, l = .run i p ∧ s.threads[i]? = some (.checkForFinishedFlush :: rest)) ∧
    s.state = .kFlushing ∧ b = .kFlushed) ∨
  (l.aborts = true ∧ b = .kAborted)

theorem StateMove.moves {l : Label} {b : BatcherState} (h : s.StateMove l b) :
    s.state.Moves b := by
  rcases h with h | ⟨-, h⟩ | ⟨-, h⟩ | ⟨-, h⟩
  · exact .inl h
  · exact .inr (.inl h)
  · exact .inr (.inr (.inl h))
  · exact .inr (.inr (.inr h))

/-- **What a step does to `state_`.**  It makes the move of its label. -/
theorem step_state {s s' : Batcher} {l : Label} (h : s.step f l = some (.ok s')) :
    s.StateMove l s'.state := by
  rcases step_eq h with ⟨i, p, fr, rest, others, sd, k, rfl, hpick, hx, rfl⟩ |
    ⟨sd, k, -, hx, rfl⟩
  · rcases (exec_effect hx).state with h | ⟨⟨_, h⟩, -⟩ |
      ⟨⟨p', h⟩, hs, h'⟩ | ⟨h, -⟩
    · exact .inl h
    · cases h
    · obtain ⟨rfl, rfl⟩ := Action.exec.inj h
      exact .inr (.inr (.inl ⟨⟨i, p, rest, rfl, pick_getElem? hpick⟩, hs, h'⟩))
    · cases h
  · rcases (enter_effect hx).state with h | ⟨⟨now, h⟩, h'⟩ |
      ⟨⟨_, h⟩, -⟩ | h
    · exact .inl h
    · exact .inr (.inl ⟨⟨now, Action.enter.inj h⟩, h'⟩)
    · cases h
    · exact .inr (.inr (.inr h))

theorem step_moves {s s' : Batcher} {l : Label} (h : s.step f l = some (.ok s')) :
    s.state.Moves s'.state :=
  (step_state h).moves

end Batcher

/-- **The life cycle.**  Along every run, from any state and whatever the labels: each step
leaves `state_` unchanged or makes the move its label makes (`FlushAsync` from `kGatheringOps`
to `kFlushing`, a thread running `CheckForFinishedFlush` from `kFlushing` to `kFlushed`, a step
calling `Abort` from any value to `kAborted`); so each value of `state_` is one move from the
one before, the values never go back in the order of `BatcherState.rank`
(`BatcherState.Moves.rank_le`) and `kAborted` is never left (`BatcherState.Moves.of_aborted`),
while `kFlushed` is. -/
theorem state_visits_chain (f : Flags) (s : Batcher) (ls : List Label) :
    (∀ t ∈ s.transitions f ls, t.1.StateMove t.2.1 t.2.2.state) ∧
    ((s.visits f ls).map (·.state)).Chain' BatcherState.Moves :=
  ⟨fun _ ht => Batcher.step_state (Batcher.step_of_mem_transitions ht),
    List.chain'_map _ |>.2 (Batcher.chain'_visits (fun _ _ _ h => Batcher.step_moves h) s ls)⟩

/-- A run of an empty batch that flushes, completes, and is aborted afterwards. -/
theorem flushed_then_aborted :
    ((Batcher.init false false false).visits ⟨false, false, 1⟩
      [.flushAsync 0, .run 0 false, .abort ⟨.kAborted, "Batch aborted"⟩]).map (·.state) =
      [.kGatheringOps, .kFlushing, .kFlushed, .kAborted] := by
  rfl

namespace Batcher

/-- In a run without `Abort`, `state_` is never `kAborted`. -/
theorem state_ne_aborted {f : Flags} {s : Batcher} (h : Reachable f noAbort s) :
    s.state ≠ .kAborted :=
  h.invariant (P := fun t => t.state ≠ .kAborted) (fun _ _ _ => by simp [init])
    fun _ hs hl hstep => by
      rcases step_state hstep with h | ⟨-, -, h⟩ | ⟨-, -, h⟩ | ⟨h, -⟩
      · rwa [h]
      · simp [h]
      · simp [h]
      · simp [noAbort, h] at hl

end Batcher

end ClientBatcher
