import GoBuildCache.Basic

/-!
# `GofslockGroup`, single flight over file locks

`GofslockGroup.Do(key, fn)` (`dedupe/gofslock.go`) first looks the key up in the in-process
map `calls`.  A caller that finds an entry waits on its `done` channel and returns the entry's
`result` and `err` with `shared = true`.  A caller that finds none stores a fresh
`fslockCall`, takes the file lock `lockDir/<sha256-hex(key)>.lock`, runs `fn`, stores its
result in the entry, releases the lock, deletes the entry and closes `done`.  When the file lock
cannot be taken, the caller deletes the entry, closes `done` and returns the lock error, and
never writes the entry's `result` or `err`.

This module models `Do` goroutine by goroutine.  Every process has its own map; the file locks
are shared by all processes that use the same lock directory.  The name of a key's lock file
is a parameter `lockPath`: the proofs use only that one key has one lock file, never what
SHA-256 computes.

* `FsWorld` is the state: where each call is (`FsDoPc`), the call entries, each process's map
  and the holder of each lock file.  `fsDoStep` is one step of one call.
* Mutual exclusion.  `HoldsInv` says that a call running `fn`, or between `fn` and
  `lock.Unlock()`, holds its key's lock file.  `fn_exclusive` reads off it that two calls
  running `fn` for the same key, in one process or in two, are the same call.
* Sharing.  `waiter_shares_nil_after_lock_failure` is a run in which the first caller fails to
  take the lock while a second caller waits on its entry: the first returns the lock error,
  the second returns `nil, nil` with `shared = true`.
-/

namespace GoBuildCache.Dedupe

/-- An `fslockCall`: the key, the result and error `fn` returned (an `interface{}` payload and
an error message, `none` for nil), and whether `done` is closed.  `leader` is the call of `Do`
that made the entry. -/
structure FslockCall where
  key : Bytes
  leader : Nat
  result : Option Nat
  err : Option Bytes
  done : Bool

/-- Where one call of `GofslockGroup.Do` is. -/
inductive FsDoPc
  /-- Before `g.mu.Lock()`. -/
  | start
  /-- Found entry `c` in the map, blocked on `<-call.done`. -/
  | waiting (c : Nat)
  /-- Made entry `c`, before `lock.Lock()`. -/
  | locking (c : Nat)
  /-- Holds the lock file and runs `fn`. -/
  | running (c : Nat)
  /-- `fn` returned and its result is in entry `c`; before `lock.Unlock()`. -/
  | ranFn (c : Nat)
  /-- Before the clean-up `delete(g.calls, key)`. -/
  | unlocked (c : Nat)
  /-- Before `close(call.done)`. -/
  | cleaned (c : Nat)
  /-- `lock.Lock()` failed with the message; the entry is deleted, `done` not yet closed. -/
  | lockFailed (c : Nat) (e : Bytes)
  /-- `Do` returned `v, err, shared`. -/
  | returned (v : Option Nat) (err : Option Bytes) (shared : Bool)
  deriving DecidableEq

/-- The error `Do` returns when the file lock cannot be taken:
`fmt.Errorf("failed to acquire lock: %w", err)`. -/
def lockErrorMessage (e : Bytes) : Bytes := ascii "failed to acquire lock: " ++ e

/-- The calls of `Do` in flight, the entries they made, the map of each process and the
holder of each lock file. -/
structure FsWorld where
  pc : Nat → FsDoPc
  calls : Nat → FslockCall
  nextCall : Nat
  /-- `g.calls` of each process. -/
  inflight : Nat → Bytes → Option Nat
  /-- The call of `Do` that holds each lock file. -/
  flock : Bytes → Option Nat

/-- The state before any call of `Do`: no entry, no lock file held. -/
def fsStart : FsWorld :=
  ⟨fun _ => .start, fun _ => ⟨[], 0, none, none, false⟩, 0, fun _ _ => none, fun _ => none⟩

section Step

-- The process and the key of each call of `Do`, and the lock file of each key.
variable (procOf : Nat → Nat) (keyOf : Nat → Bytes) (lockPath : Bytes → Bytes)

/-- One step of one call of `GofslockGroup.Do`. -/
inductive fsDoStep : FsWorld → FsWorld → Prop
  /-- The key has an entry: wait on it. -/
  | join (w : FsWorld) (t c : Nat) (hpc : w.pc t = .start)
      (hin : w.inflight (procOf t) (keyOf t) = some c) :
      fsDoStep w { w with pc := Function.update w.pc t (.waiting c) }
  /-- The key has no entry: make one. -/
  | lead (w : FsWorld) (t : Nat) (hpc : w.pc t = .start)
      (hin : w.inflight (procOf t) (keyOf t) = none) :
      fsDoStep w
        { w with
          pc := Function.update w.pc t (.locking w.nextCall)
          calls := Function.update w.calls w.nextCall ⟨keyOf t, t, none, none, false⟩
          nextCall := w.nextCall + 1
          inflight := Function.update w.inflight (procOf t)
            (Function.update (w.inflight (procOf t)) (keyOf t) (some w.nextCall)) }
  /-- `<-call.done` returns: the waiter returns the entry's result and error. -/
  | wake (w : FsWorld) (t c : Nat) (hpc : w.pc t = .waiting c) (hdone : (w.calls c).done = true) :
      fsDoStep w
        { w with pc := Function.update w.pc t (.returned (w.calls c).result (w.calls c).err true) }
  /-- `lock.Lock()` takes the free lock file. -/
  | lockOk (w : FsWorld) (t c : Nat) (hpc : w.pc t = .locking c)
      (hfree : w.flock (lockPath (keyOf t)) = none) :
      fsDoStep w
        { w with
          pc := Function.update w.pc t (.running c)
          flock := Function.update w.flock (lockPath (keyOf t)) (some t) }
  /-- `lock.Lock()` fails: `delete(g.calls, key)`. -/
  | lockFail (w : FsWorld) (t c : Nat) (e : Bytes) (hpc : w.pc t = .locking c) :
      fsDoStep w
        { w with
          pc := Function.update w.pc t (.lockFailed c e)
          inflight := Function.update w.inflight (procOf t)
            (Function.update (w.inflight (procOf t)) (keyOf t) none) }
  /-- After a failed lock: `close(call.done)` and the lock error, with the entry's result and
  error left unset. -/
  | failNotify (w : FsWorld) (t c : Nat) (e : Bytes) (hpc : w.pc t = .lockFailed c e) :
      fsDoStep w
        { w with
          pc := Function.update w.pc t (.returned none (some (lockErrorMessage e)) false)
          calls := Function.update w.calls c { w.calls c with done := true } }
  /-- `call.result, call.err = fn()`. -/
  | fnReturn (w : FsWorld) (t c : Nat) (v : Option Nat) (e : Option Bytes)
      (hpc : w.pc t = .running c) :
      fsDoStep w
        { w with
          pc := Function.update w.pc t (.ranFn c)
          calls := Function.update w.calls c { w.calls c with result := v, err := e } }
  /-- `lock.Unlock()`. -/
  | unlock (w : FsWorld) (t c : Nat) (hpc : w.pc t = .ranFn c) :
      fsDoStep w
        { w with
          pc := Function.update w.pc t (.unlocked c)
          flock := Function.update w.flock (lockPath (keyOf t)) none }
  /-- The clean-up `delete(g.calls, key)`. -/
  | cleanup (w : FsWorld) (t c : Nat) (hpc : w.pc t = .unlocked c) :
      fsDoStep w
        { w with
          pc := Function.update w.pc t (.cleaned c)
          inflight := Function.update w.inflight (procOf t)
            (Function.update (w.inflight (procOf t)) (keyOf t) none) }
  /-- `close(call.done)` and the return of the entry's result and error. -/
  | notify (w : FsWorld) (t c : Nat) (hpc : w.pc t = .cleaned c) :
      fsDoStep w
        { w with
          pc := Function.update w.pc t (.returned (w.calls c).result (w.calls c).err false)
          calls := Function.update w.calls c { w.calls c with done := true } }

/-- The states that calls of `Do` reach from `fsStart`. -/
inductive FsReachable : FsWorld → Prop
  | start : FsReachable fsStart
  | step {w w' : FsWorld} : FsReachable w → fsDoStep procOf keyOf lockPath w w' →
      FsReachable w'

/-- A call that runs `fn`, or has run it and not yet released the lock file, holds the lock
file of its key. -/
def HoldsInv (w : FsWorld) : Prop :=
  ∀ t c, (w.pc t = .running c ∨ w.pc t = .ranFn c) → w.flock (lockPath (keyOf t)) = some t

theorem holdsInv_start : HoldsInv keyOf lockPath fsStart := by
  intro t c h; simp [fsStart] at h

/-- One step keeps `HoldsInv`.  `lockOk` takes only a free lock file, and `unlock` releases
the lock file that the releasing call holds, so no other holder loses it. -/
theorem holdsInv_step {w w' : FsWorld} (hinv : HoldsInv keyOf lockPath w)
    (h : fsDoStep procOf keyOf lockPath w w') : HoldsInv keyOf lockPath w' := by
  intro u d hu
  cases h with
  | join t c hpc | lead t hpc | wake t c hpc | lockFail t c e hpc | failNotify t c e hpc
  | cleanup t c hpc | notify t c hpc =>
    by_cases hut : u = t
    · subst hut; simp at hu
    · simp only [Function.update_noteq hut] at hu; exact hinv u d hu
  | fnReturn t c v e hpc =>
    by_cases hut : u = t
    · subst hut; exact hinv u c (.inl hpc)
    · simp only [Function.update_noteq hut] at hu; exact hinv u d hu
  | lockOk t c hpc hfree =>
    by_cases hut : u = t
    · subst hut; simp
    · simp only [Function.update_noteq hut] at hu
      have hold := hinv u d hu
      have hne : lockPath (keyOf u) ≠ lockPath (keyOf t) := fun he => by simp [he, hfree] at hold
      simp only [Function.update_noteq hne, hold]
  | unlock t c hpc =>
    by_cases hut : u = t
    · subst hut; simp at hu
    · simp only [Function.update_noteq hut] at hu
      have hold := hinv u d hu
      have hne : lockPath (keyOf u) ≠ lockPath (keyOf t) := fun he => by
        have := hinv t c (.inr hpc)
        rw [← he, hold] at this
        exact hut (Option.some.inj this)
      simp only [Function.update_noteq hne, hold]

theorem holdsInv_of_reachable {w : FsWorld} (h : FsReachable procOf keyOf lockPath w) :
    HoldsInv keyOf lockPath w := by
  induction h with
  | start => exact holdsInv_start keyOf lockPath
  | step _ hstep ih => exact holdsInv_step procOf keyOf lockPath ih hstep

/-- Two calls of `Do` that run `fn` for the same key at the same time, in one process or in
two sharing the lock directory, are the same call. -/
theorem fn_exclusive {w : FsWorld} (h : FsReachable procOf keyOf lockPath w) {t u c d : Nat}
    (ht : w.pc t = .running c) (hu : w.pc u = .running d) (hkey : keyOf t = keyOf u) :
    t = u := by
  have hinv := holdsInv_of_reachable procOf keyOf lockPath h
  have h1 := hinv t c (.inl ht)
  rw [hkey, hinv u d (.inl hu)] at h1
  exact (Option.some.inj h1).symm

end Step

/-- Two processes call `Do` for one key, and the first takes the lock file and runs `fn`: it is
the only call running `fn`, the second waiting for the lock file. -/
theorem fn_exclusive_first_runs : ∃ w, FsReachable id (fun _ => [1]) id w ∧
    w.pc 0 = .running 0 ∧ w.pc 1 = .locking 1 ∧ ∀ u d, w.pc u = .running d → u = 0 := by
  have h1 : FsReachable id (fun _ => [1]) id _ := .step .start (.lead fsStart 0 rfl rfl)
  have h2 := FsReachable.step h1 (fsDoStep.lead _ 1 rfl rfl)
  have h3 := FsReachable.step h2 (fsDoStep.lockOk _ 0 0 rfl rfl)
  exact ⟨_, h3, rfl, rfl, fun u d hu => fn_exclusive id (fun _ => [1]) id h3 hu rfl rfl⟩

/-- Two calls of `Do(key, fn)` in one process: call `0` makes the entry, call `1` waits on it,
then `lock.Lock()` of call `0` fails.  Call `0` returns `nil` and the lock error, and call `1`
returns `nil, nil, true`: the entry's result and error, which nothing wrote. -/
theorem waiter_shares_nil_after_lock_failure (key e : Bytes) :
    ∃ w, FsReachable (fun _ => 0) (fun _ => key) id w ∧
      w.pc 0 = .returned none (some (lockErrorMessage e)) false ∧
      w.pc 1 = .returned none none true :=
  ⟨_, .step (.step (.step (.step (.step .start
      (.lead _ 0 rfl rfl)) (.join _ 1 0 rfl (by simp [fsStart])))
      (.lockFail _ 0 0 e (by simp [fsStart]))) (.failNotify _ 0 0 e (by simp [fsStart])))
      (.wake _ 1 0 (by simp [fsStart]) (by simp [fsStart])), by simp [fsStart], by simp [fsStart]⟩

end GoBuildCache.Dedupe
