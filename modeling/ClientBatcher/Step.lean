import Mathlib.Data.List.Chain
import ClientBatcher.Ops

/-!
# Runs of the batcher

The batcher is shared by many threads, so the model is an interleaving semantics.  A state is
the batcher's fields (`Batcher`) together with what each thread inside the batcher's code still
has to run (`Batcher.threads`: a list of `Frame`s per thread), the lookups the meta cache has
not answered, the `TransactionReady` callbacks the transaction holds, and the progress of every
RPC.  One step (`Batcher.step`) is either

* a call that enters the batcher (`Label.add`, `Label.flushAsync`, `Label.abort`, a lookup or a
  transaction calling back, an RPC response or the next piece of an RPC's completion), which runs
  the call's first atomic piece and leaves a new thread for the rest; or
* `Label.run i`: thread `i` runs its next frame.

A CHECK that fails ends the run: `step` returns the `CheckFailure`, and no state follows it.
`Reachable f allowed` holds of the states of the runs that take only steps `allowed` permits.

* `Reachable.invariant` : a property that holds of every constructed batcher, and that every
  allowed step from a reachable state keeps, holds of every reachable state.  The step may use
  what is already known of reachable states, so each invariant is proved once and later ones
  cite the earlier ones' results.
-/

namespace ClientBatcher

/-- The element at index `i` and the list without it. -/
def pick {α : Type} : List α → ℕ → Option (α × List α)
  | [], _ => none
  | a :: l, 0 => some (a, l)
  | a :: l, i + 1 => (pick l i).map fun p => (p.1, a :: p.2)

theorem pick_perm {α : Type} : ∀ {l : List α} {i : ℕ} {a : α} {rest : List α},
    pick l i = some (a, rest) → l.Perm (a :: rest)
  | [], _, _, _, h => by simp [pick] at h
  | b :: l, 0, a, rest, h => by simp only [pick, Option.some.injEq, Prod.mk.injEq] at h; simp [h]
  | b :: l, i + 1, a, rest, h => by
    simp only [pick, Option.map_eq_some', Prod.exists, Prod.mk.injEq] at h
    obtain ⟨a', rest', hp, rfl, rfl⟩ := h
    exact ((pick_perm hp).cons b).trans (List.Perm.swap _ _ _)

theorem pick_eq {α : Type} : ∀ {l : List α} {i : ℕ} {a : α} {rest : List α},
    pick l i = some (a, rest) → ∃ A B, l = A ++ a :: B ∧ rest = A ++ B
  | [], _, _, _, h => by simp [pick] at h
  | b :: l, 0, a, rest, h => by
    simp only [pick, Option.some.injEq, Prod.mk.injEq] at h
    exact ⟨[], l, by simp [h.1], h.2.symm⟩
  | b :: l, i + 1, a, rest, h => by
    simp only [pick, Option.map_eq_some', Prod.exists, Prod.mk.injEq] at h
    obtain ⟨a', rest', hp, rfl, rfl⟩ := h
    obtain ⟨A, B, rfl, rfl⟩ := pick_eq hp
    exact ⟨b :: A, B, rfl, rfl⟩

theorem pick_getElem? {α : Type} : ∀ {l : List α} {i : ℕ} {a : α} {rest : List α},
    pick l i = some (a, rest) → l[i]? = some a
  | [], _, _, _, h => by simp [pick] at h
  | b :: l, 0, a, rest, h => by simp only [pick, Option.some.injEq, Prod.mk.injEq] at h; simp [h]
  | b :: l, i + 1, a, rest, h => by
    simp only [pick, Option.map_eq_some', Prod.exists, Prod.mk.injEq] at h
    obtain ⟨a', rest', hp, rfl, rfl⟩ := h
    simpa using pick_getElem? hp

/-- The threads after one of them goes on with `k`: a thread with nothing left ends. -/
def resume (threads : List (List Frame)) (k : List Frame) : List (List Frame) :=
  if k = [] then threads else threads ++ [k]

@[simp] theorem flatten_resume (threads : List (List Frame)) (k : List Frame) :
    (resume threads k).flatten = threads.flatten ++ k := by
  unfold resume; split_ifs <;> simp [*]

/-- A step of the system. -/
inductive Label where
  /-- The user calls `Add(op)`. -/
  | add (op : YBOperation)
  /-- The user calls `SetTimeout(timeout)`. -/
  | setTimeout (timeout : ℤ)
  /-- The user calls `FlushAsync(callback)` at time `now`. -/
  | flushAsync (now : ℤ)
  /-- The user calls `Abort(status)`. -/
  | abort (status : Status)
  /-- The meta cache calls back with the result of `op`'s lookup. -/
  | lookupFinished (op : ℕ) (result : LookupResult)
  /-- The transaction calls one of the `TransactionReady` callbacks it holds. -/
  | transactionReady (status : Status)
  /-- RPC `rpc` completes with `status` and the response's per-row errors. -/
  | rpcFinished (rpc : ℕ) (status : Status) (errors : List PerRowError)
  /-- The completion of RPC `rpc` runs its next piece. -/
  | rpcStep (rpc : ℕ)
  /-- Thread `thread` runs its next frame; `prepared` is what `transaction->Prepare` returns if
  the frame calls it. -/
  | run (thread : ℕ) (prepared : Bool)

/-- `Label.abort`, or a `TransactionReady` with an error, which calls `Abort`. -/
def Label.aborts : Label → Bool
  | .abort _ => true
  | .transactionReady st => !st.ok
  | _ => false

/-- An atomic action: a call entering the batcher, or one frame run by its thread. -/
inductive Action where
  | enter (l : Label)
  | exec (fr : Frame) (prepared : Bool)

/-- The frames an action takes away from its thread. -/
def Action.consumes : Action → List Frame
  | .enter _ => []
  | .exec fr _ => [fr]

/-- The action calls `Abort`. -/
def Action.aborts : Action → Bool
  | .enter l => l.aborts
  | .exec _ _ => false

namespace Batcher

variable (f : Flags)

/-- What a frame does when its thread runs it: the new fields and the frames the thread runs
next, before the rest of its frames. -/
def exec (prepared : Bool) (s : Batcher) : Frame → Except CheckFailure (Batcher × List Frame)
  | .addTail op => s.addTail f op
  | .checkForFinishedFlush => .ok s.checkForFinishedFlush
  | .flushFinished => .ok (s, [.runCallback s.flushStatus])
  | .runCallback st => .ok (s.runCallback st)
  | .runCallbackTail st taken => (s.runCallbackTail st taken).map (·, [])
  | .flushBuffersIfReady => .ok (s.flushBuffersIfReady f prepared)
  | .flushBuffer c => (s.flushBuffer f c).map (·, [])

/-- What a call entering the batcher does first: the new fields and the frames of the thread it
leaves behind.  `none` when the call cannot happen now. -/
def enter (s : Batcher) : Label → Option (Except CheckFailure (Batcher × List Frame))
  | .add op => some (s.add op)
  | .setTimeout t => some ((s.setTimeout t).map (·, []))
  | .flushAsync now => some (s.flushAsync now)
  | .abort st => some (s.abort f st)
  | .lookupFinished op r =>
    if op ∈ s.lookups then
      some ({ s with lookups := s.lookups.erase op }.tabletLookupFinished f op r)
    else none
  | .transactionReady st =>
    if 0 < s.waiters then
      let s := { s with waiters := s.waiters - 1 }
      some (if st.ok then .ok (s, [.flushBuffersIfReady]) else s.abort f st)
    else none
  | .rpcFinished r st errs =>
    match s.rpcs[r]? with
    | some rpc => if rpc.phase = .sent then some ((s.processRpcStatus r rpc st errs).map (·, []))
      else none
    | none => none
  | .rpcStep r =>
    match s.rpcs[r]? with
    | some rpc => s.rpcStep f r rpc
    | none => none
  | .run _ _ => none

/-- An action on the batcher's fields. -/
def act (s : Batcher) : Action → Option (Except CheckFailure (Batcher × List Frame))
  | .enter l => s.enter f l
  | .exec fr prepared => some (s.exec f prepared fr)

/-- One step of the system. -/
def step (s : Batcher) : Label → Option (Except CheckFailure Batcher)
  | .run i prepared =>
    match pick s.threads i with
    | some (fr :: rest, others) =>
      some ((s.exec f prepared fr).map fun p => { p.1 with threads := resume others (p.2 ++ rest) })
    | _ => none
  | l => (s.enter f l).map (·.map fun p => { p.1 with threads := resume s.threads p.2 })

/-- The run of the labels `ls` from `s`: the state it ends in, or the first step that is not a
state (a failed CHECK, or `none` for a label that cannot happen). -/
def run (s : Batcher) : List Label → Option (Except CheckFailure Batcher)
  | [] => some (.ok s)
  | l :: ls =>
    match s.step f l with
    | some (.ok s') => s'.run ls
    | r => r

/-- The states the run of the labels `ls` from `s` passes through, `s` first, up to the first
step that is not a state. -/
def visits (s : Batcher) : List Label → List Batcher
  | [] => [s]
  | l :: ls =>
    s :: match s.step f l with
    | some (.ok s') => s'.visits ls
    | _ => []

/-- The steps of the run of the labels `ls` from `s`: each state with the label it takes and the
state it reaches, up to the first step that is not a state. -/
def transitions (s : Batcher) : List Label → List (Batcher × Label × Batcher)
  | [] => []
  | l :: ls =>
    match s.step f l with
    | some (.ok s') => (s, l, s') :: s'.transitions ls
    | _ => []

end Batcher

/-- The states that the runs of a constructed batcher reach, taking only steps `allowed`
permits. -/
inductive Reachable (f : Flags) (allowed : Batcher → Label → Prop) : Batcher → Prop
  | init (transaction forceConsistentRead allowLocalCallsInCurrThread : Bool) :
    Reachable f allowed (Batcher.init transaction forceConsistentRead allowLocalCallsInCurrThread)
  | step {s s' : Batcher} {l : Label} : Reachable f allowed s → allowed s l →
    s.step f l = some (.ok s') → Reachable f allowed s'

/-- **Induction over runs.**  A property of every constructed batcher that every allowed step
from a reachable state keeps holds of every reachable state. -/
theorem Reachable.invariant {f : Flags} {allowed : Batcher → Label → Prop} {P : Batcher → Prop}
    (init : ∀ transaction forceConsistentRead allowLocalCallsInCurrThread,
      P (Batcher.init transaction forceConsistentRead allowLocalCallsInCurrThread))
    (step : ∀ {s s' : Batcher} {l : Label}, Reachable f allowed s → P s → allowed s l →
      s.step f l = some (.ok s') → P s')
    {s : Batcher} (h : Reachable f allowed s) : P s := by
  induction h with
  | init => exact init _ _ _
  | step hr hl hs ih => exact step hr ih hl hs

/-- Every step permitted. -/
def anyStep : Batcher → Label → Prop := fun _ _ => True

/-- The runs without `Abort`: neither the user nor a failed transaction calls it. -/
def noAbort : Batcher → Label → Prop := fun _ l => l.aborts = false

namespace Batcher

variable {f : Flags}

theorem head?_visits (s : Batcher) (ls : List Label) : (s.visits f ls).head? = some s := by
  cases ls <;> rfl

/-- A relation that every step makes holds between consecutive states of every run. -/
theorem chain'_visits {R : Batcher → Batcher → Prop}
    (hR : ∀ s s' l, s.step f l = some (.ok s') → R s s') :
    ∀ (s : Batcher) (ls : List Label), (s.visits f ls).Chain' R
  | s, [] => List.chain'_singleton s
  | s, l :: ls => by
    simp only [visits]
    split
    · rename_i s' hs
      exact List.chain'_cons'.2 ⟨by simpa [head?_visits] using hR s s' l hs, chain'_visits hR s' ls⟩
    · exact List.chain'_singleton s

/-- Every step of a run is a step of the system. -/
theorem step_of_mem_transitions {t : Batcher × Label × Batcher} :
    ∀ {s : Batcher} {ls : List Label}, t ∈ s.transitions f ls → t.1.step f t.2.1 = some (.ok t.2.2)
  | s, [], h => by simp [transitions] at h
  | s, l :: ls, h => by
    simp only [transitions] at h
    split at h
    · rename_i s' hs
      rcases List.mem_cons.1 h with rfl | h
      · exact hs
      · exact step_of_mem_transitions h
    · simp at h

/-- The end of a run whose labels are all allowed is reachable. -/
theorem Reachable.run {allowed : Batcher → Label → Prop} :
    ∀ {s s' : Batcher} {ls : List Label}, Reachable f allowed s → (∀ l ∈ ls, ∀ t, allowed t l) →
      s.run f ls = some (.ok s') → Reachable f allowed s'
  | s, s', [], h, _, hr => by cases hr; exact h
  | s, s', l :: ls, h, hall, hr => by
    simp only [Batcher.run] at hr
    cases hs : s.step f l with
    | none => simp [hs] at hr
    | some r =>
      cases r with
      | error e => simp [hs] at hr
      | ok s₁ =>
        simp only [hs] at hr
        exact Reachable.run (h.step (hall l (.head _) s) hs)
          (fun l' hl' => hall l' (.tail _ hl')) hr

/-- A run goes on from the state its first labels reach. -/
theorem run_append {s t : Batcher} :
    ∀ {ls : List Label}, s.run f ls = some (.ok t) → ∀ ls', s.run f (ls ++ ls') = t.run f ls'
  | [], h, ls' => by cases h; rfl
  | l :: ls, h, ls' => by
    simp only [Batcher.run, List.cons_append] at h ⊢
    cases hs : s.step f l with
    | none => simp [hs] at h
    | some r =>
      cases r with
      | error e => simp [hs] at h
      | ok s₁ => simp only [hs] at h ⊢; exact run_append h ls'

/-- A run that ends with a failed CHECK. -/
theorem run_singleton_error {t : Batcher} {l : Label} {e : CheckFailure}
    (h : t.step f l = some (.error e)) : t.run f [l] = some (.error e) := by
  simp [Batcher.run, h]

end Batcher

end ClientBatcher
