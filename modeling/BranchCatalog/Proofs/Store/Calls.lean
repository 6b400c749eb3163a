/-
This file lets calls act on a store in any order, directly and through loaders that stay at work on it, and
shows what every call keeps: the store stays consistent, and a call that fails changes nothing.
-/

import BranchCatalog.Proofs.Store.Consistency

namespace BranchCatalog

/-- The calls that can change a store. A loader is named by the number of loaders that started before it. -/
inductive Call where
  | createSchema
  | insertFile (filename : Text)
  | insertTree (tree : Tree)
  | insertBranch (branch : Branch)
  | insertNote (kind : NoteKind) (note : Note)
  | begin
  | commit
  | rollBack
  | load (items : List (Except Fault Event))
  | startLoader
  | apply (loader : Nat) (event : Event)
  deriving DecidableEq

/-- What a call that succeeds gives back. -/
inductive Reply where
  | done
  | id (id : Id)
  | counts (counts : LoadCounts)
  deriving DecidableEq, Repr

/-- A store with the loaders that are at work on it. Their own copies of the store are not looked at. -/
structure Workbench where
  store : Store
  loaders : List Loader

namespace Workbench

def empty : Workbench :=
  ⟨.empty, []⟩

/-- The outcome of an operation on the store, which gives an answer with another store, or is refused. -/
def replied {Answer : Type} (bench : Workbench) (reply : Answer → Reply) (store : Answer → Store) :
    Except StoreFault Answer → Except Fault Reply × Workbench
  | .ok answer => (.ok (reply answer), { bench with store := store answer })
  | .error cause => (.error (.storage cause), bench)

def inserted (bench : Workbench) : Except StoreFault (Id × Store) → Except Fault Reply × Workbench :=
  bench.replied (fun entry => .id entry.1) Prod.snd

def switched (bench : Workbench) : Except StoreFault Store → Except Fault Reply × Workbench :=
  bench.replied (fun _ => .done) id

/-- Applies an event by a loader to the store as it is now, with what the loader has learnt before. -/
def applied (bench : Workbench) (number : Nat) (loader : Loader) (event : Event) :
    Except Fault Reply × Workbench :=
  let (outcome, loader) := Loading.outcome (Loader.apply event) { loader with store := bench.store }
  (outcome.map fun () => .done, ⟨loader.store, bench.loaders.set number loader⟩)

/-- What a call gives back and leaves. A loader that has not started does nothing. -/
def call (bench : Workbench) : Call → Except Fault Reply × Workbench
  | .createSchema => (.ok .done, bench)
  | .insertFile filename => bench.inserted (.ok (bench.store.insertFile filename))
  | .insertTree tree => bench.inserted (bench.store.insertTree tree)
  | .insertBranch branch => bench.inserted (bench.store.insertBranch branch)
  | .insertNote kind note => bench.inserted (bench.store.insertNote kind note)
  | .begin => bench.switched bench.store.begin
  | .commit => bench.switched bench.store.commit
  | .rollBack => bench.switched bench.store.rollBack
  | .load items =>
    ((bench.store.load items).1.map .counts, { bench with store := (bench.store.load items).2 })
  | .startLoader => (.ok .done, { bench with loaders := bench.loaders ++ [.start bench.store] })
  | .apply number event =>
    match bench.loaders[number]? with
    | none => (.ok .done, bench)
    | some loader => bench.applied number loader event

/-- The workbench after calls, whether they succeed or fail. -/
def run (bench : Workbench) (calls : List Call) : Workbench :=
  calls.foldl (fun bench call => (bench.call call).2) bench

section Consistent

variable {bench : Workbench} (consistent : bench.store.Consistent)
include consistent

/-- A call that succeeds leaves the store that its attempt gives. -/
theorem consistent_replied {Answer : Type} {reply : Answer → Reply} {store : Answer → Store}
    {attempt : Except StoreFault Answer}
    (kept : ∀ answer, attempt = .ok answer → (store answer).Consistent) :
    (bench.replied reply store attempt).2.store.Consistent := by
  cases attempt with
  | error cause => exact consistent
  | ok answer => exact kept answer rfl

/-- An event at a loader keeps the store consistent, be it refused. -/
theorem consistent_applied (number : Nat) (loader : Loader) (event : Event) :
    (bench.applied number loader event).2.store.Consistent :=
  Loader.maintains_apply Store.consistent_keptByInsertions event { loader with store := bench.store }
    consistent

/-- Every call leaves a consistent store, whether it succeeds or fails. -/
theorem consistent_call (call : Call) : (bench.call call).2.store.Consistent := by
  have kept := Store.consistent_keptByInsertions
  cases call with
  | createSchema => exact consistent
  | insertFile filename => exact kept.file bench.store filename consistent
  | insertTree tree =>
      exact consistent_replied consistent fun _ made => kept.tree _ _ _ _ made consistent
  | insertBranch branch =>
      exact consistent_replied consistent fun _ made => kept.branch _ _ _ _ made consistent
  | insertNote kind note =>
      exact consistent_replied consistent fun _ made => kept.note _ _ _ _ _ made consistent
  | begin => exact consistent_replied consistent fun _ made => consistent.begin made
  | commit => exact consistent_replied consistent fun _ made => consistent.commit made
  | rollBack => exact consistent_replied consistent fun _ made => consistent.rollBack made
  | load items => exact consistent.load items
  | startLoader => exact consistent
  | apply number event =>
      rw [Workbench.call]
      cases bench.loaders[number]? with
      | none => exact consistent
      | some loader => exact consistent_applied consistent number loader event

/-- Calls in any number and order leave a consistent store. -/
theorem consistent_run (calls : List Call) : (bench.run calls).store.Consistent := by
  induction calls generalizing bench with
  | nil => exact consistent
  | cons call calls inductionHypothesis => exact inductionHypothesis (consistent_call consistent call)

end Consistent

section Failure

variable {bench after : Workbench} {fault : Fault}

/-- A call that fails leaves the bench as it was. -/
theorem eq_of_replied_error {Answer : Type} {reply : Answer → Reply} {store : Answer → Store}
    {attempt : Except StoreFault Answer}
    (failed : bench.replied reply store attempt = (.error fault, after)) : after = bench := by
  cases attempt with
  | error cause => exact (Prod.mk.inj failed).2.symm
  | ok answer => cases failed

/-- A call that fails leaves everything as it was, unless a loader applies an event. -/
theorem eq_of_call_error {call : Call} (direct : ∀ number event, call ≠ .apply number event)
    (failed : bench.call call = (.error fault, after)) : after = bench := by
  cases call with
  | createSchema | insertFile filename | startLoader => cases failed
  | insertTree _ | insertBranch _ | insertNote _ _ | begin | commit | rollBack =>
      exact eq_of_replied_error failed
  | load items =>
      cases loaded : bench.store.load items with
      | mk outcome store =>
          simp only [Workbench.call, loaded, Prod.mk.injEq] at failed
          obtain ⟨refused, rfl⟩ := failed
          cases outcome with
          | ok counts => cases refused
          | error cause => rw [Store.eq_of_load_error loaded]
  | apply number event => exact absurd rfl (direct number event)

/-- An event that a loader refuses leaves the store as it was, or with its file stored. -/
theorem store_of_apply_error {number : Nat} {event : Event}
    (failed : bench.call (.apply number event) = (.error fault, after)) :
    after.store = bench.store ∨ after.store = (bench.store.insertFile event.filename).2 := by
  rw [Workbench.call] at failed
  cases found : bench.loaders[number]? with
  | none =>
      rw [found] at failed
      cases failed
  | some loader =>
      rw [found] at failed
      cases ran : Loading.outcome (Loader.apply event) { loader with store := bench.store } with
      | mk outcome left =>
          simp only [applied, ran, Prod.mk.injEq] at failed
          obtain ⟨refused, rfl⟩ := failed
          cases outcome with
          | ok done => cases refused
          | error cause => exact Loader.store_of_refused ran

end Failure

end Workbench

end BranchCatalog
