import GoBuildCache.Basic

/-!
# `MemLock`, the in-memory key lock

`MemLock` (`dedupe/memlock.go`) is the default `Locker` of `createDedupeGroup` in `main.go`
(dedupe type `memory`).  `DoWithLock(key, fn)` takes the outer mutex, looks the key up in the
map `locks`, stores a fresh `*sync.Mutex` there when the key is new, releases the outer mutex,
then runs `fn` under the key's mutex.

`NewMemLock` returns `&MemLock{}`: its map is the nil map.  Looking a key up in a nil map finds
nothing, and assigning into one panics with `assignment to entry in nil map`.  This module
models `DoWithLock` goroutine by goroutine and proves what every interleaving of calls on a
`MemLock` from `NewMemLock` does.

* The state.  `MemLock` holds the outer mutex, the map (`none` is the nil map) and one holder
  per allocated mutex.  Each call of `DoWithLock` is a goroutine with a program counter
  `DoPc`; `memLockStep` is one step of one goroutine.
* The run.  `locks_nil_of_reachable` proves that nothing ever assigns the map, so it stays
  nil, and `newMemLock_doWithLock_panics` reads off every reachable state that a call past
  `s.Lock()` has panicked, that no call has run `fn` and that none has returned.
-/

namespace GoBuildCache.Dedupe

/-- `MemLock` together with the mutexes it allocated.  `locks = none` is Go's nil map; a
mutex is named by its allocation index, and `held m` is the goroutine that holds mutex `m`. -/
structure MemLock where
  /-- The embedded `sync.Mutex`: the goroutine that holds it. -/
  outer : Option Nat
  /-- `s.locks`. -/
  locks : Option (Bytes → Option Nat)
  /-- The holder of each allocated `*sync.Mutex`. -/
  held : Nat → Option Nat
  /-- The number of mutexes allocated so far. -/
  allocated : Nat

/-- `NewMemLock()`: `&MemLock{}`, whose map is nil. -/
def newMemLock : MemLock := ⟨none, none, fun _ => none, 0⟩

/-- Where one call of `DoWithLock` is. -/
inductive DoPc
  /-- Before `s.Lock()`. -/
  | start
  /-- Holds `s.Mutex`, before the map lookup. -/
  | looking
  /-- Holds `s.Mutex` and has the key's mutex `m`, before `s.Unlock()`. -/
  | found (m : Nat)
  /-- Before `lock.Lock()`. -/
  | acquiring (m : Nat)
  /-- Holds mutex `m` and runs `fn`. -/
  | running (m : Nat)
  /-- `fn` returned `r`; the deferred `lock.Unlock()` has not run yet. -/
  | unlocking (m : Nat) (r : Nat)
  /-- `DoWithLock` returned `fn`'s result `r`. -/
  | returned (r : Nat)
  /-- The goroutine panicked with the message. -/
  | panicked (msg : String)
  deriving DecidableEq

/-- The message of Go's runtime for an assignment into a nil map. -/
def nilMapAssignment : String := "assignment to entry in nil map"

/-- The calls of `DoWithLock` in flight, each with its key, and the lock. -/
structure MemLockRun where
  lock : MemLock
  pc : Nat → DoPc

section Step

-- The key of each call of `DoWithLock`.
variable (keyOf : Nat → Bytes)

/-- One step of one call of `DoWithLock`. -/
inductive memLockStep : MemLockRun → MemLockRun → Prop
  /-- `s.Lock()`. -/
  | lockOuter (r : MemLockRun) (t : Nat) (hpc : r.pc t = .start) (hfree : r.lock.outer = none) :
      memLockStep r ⟨{ r.lock with outer := some t }, Function.update r.pc t .looking⟩
  /-- `s.locks[key]` finds the key's mutex. -/
  | lookupFound (r : MemLockRun) (t m : Nat) (hpc : r.pc t = .looking)
      (hmap : ∃ f, r.lock.locks = some f ∧ f (keyOf t) = some m) :
      memLockStep r ⟨r.lock, Function.update r.pc t (.found m)⟩
  /-- A new key: `s.locks[key] = &sync.Mutex{}` on a map that is not nil. -/
  | lookupStore (r : MemLockRun) (t : Nat) (f : Bytes → Option Nat) (hpc : r.pc t = .looking)
      (hmap : r.lock.locks = some f) (hnew : f (keyOf t) = none) :
      memLockStep r
        ⟨{ r.lock with
            locks := some (Function.update f (keyOf t) (some r.lock.allocated))
            allocated := r.lock.allocated + 1 },
          Function.update r.pc t (.found r.lock.allocated)⟩
  /-- A new key on the nil map: the assignment panics, with `s.Mutex` still held. -/
  | lookupNil (r : MemLockRun) (t : Nat) (hpc : r.pc t = .looking) (hmap : r.lock.locks = none) :
      memLockStep r ⟨r.lock, Function.update r.pc t (.panicked nilMapAssignment)⟩
  /-- `s.Unlock()`. -/
  | unlockOuter (r : MemLockRun) (t m : Nat) (hpc : r.pc t = .found m) :
      memLockStep r ⟨{ r.lock with outer := none }, Function.update r.pc t (.acquiring m)⟩
  /-- `lock.Lock()`. -/
  | lockKey (r : MemLockRun) (t m : Nat) (hpc : r.pc t = .acquiring m)
      (hfree : r.lock.held m = none) :
      memLockStep r ⟨{ r.lock with held := Function.update r.lock.held m (some t) },
        Function.update r.pc t (.running m)⟩
  /-- `fn()` returns. -/
  | fnReturn (r : MemLockRun) (t m v : Nat) (hpc : r.pc t = .running m) :
      memLockStep r ⟨r.lock, Function.update r.pc t (.unlocking m v)⟩
  /-- The deferred `lock.Unlock()`, and the return of `fn`'s result. -/
  | unlockKey (r : MemLockRun) (t m v : Nat) (hpc : r.pc t = .unlocking m v) :
      memLockStep r ⟨{ r.lock with held := Function.update r.lock.held m none },
        Function.update r.pc t (.returned v)⟩

/-- The states that calls of `DoWithLock` reach from `init`. -/
inductive MemLockReachable (init : MemLockRun) : MemLockRun → Prop
  | refl : MemLockReachable init init
  | step {r r' : MemLockRun} : MemLockReachable init r → memLockStep keyOf r r' →
      MemLockReachable init r'

end Step

/-- The calls on a fresh `MemLock`: every call is before `s.Lock()`. -/
def memLockStart : MemLockRun := ⟨newMemLock, fun _ => .start⟩

/-- What holds of every state reached from `NewMemLock`: the map is nil, and every call is
before `s.Lock()`, holds `s.Mutex` before its lookup, or has panicked holding it. -/
def NilMapInv (r : MemLockRun) : Prop :=
  r.lock.locks = none ∧
    ∀ t, r.pc t = .start ∨ (r.pc t = .looking ∧ r.lock.outer = some t) ∨
      r.pc t = .panicked nilMapAssignment

/-- One step keeps `NilMapInv`: with the map nil, the only step after `s.Lock()` is the
panicking assignment. -/
theorem nilMapInv_step (keyOf : Nat → Bytes) {r r' : MemLockRun} (hinv : NilMapInv r)
    (h : memLockStep keyOf r r') : NilMapInv r' := by
  obtain ⟨hnil, hpcs⟩ := hinv
  cases h with
  | lockOuter t hpc hfree =>
    refine ⟨hnil, fun u => ?_⟩
    by_cases hu : u = t
    · subst hu; simp
    · simp only [Function.update_noteq hu]
      rcases hpcs u with h | ⟨h, ho⟩ | h
      · exact .inl h
      · simp [hfree] at ho
      · exact .inr (.inr h)
  | lookupFound t m hpc hmap => simp [hnil] at hmap
  | lookupStore t f hpc hmap => simp [hnil] at hmap
  | lookupNil t hpc =>
    refine ⟨hnil, fun u => ?_⟩
    by_cases hu : u = t
    · subst hu; simp
    · simpa [Function.update_noteq hu] using hpcs u
  | unlockOuter t m hpc => rcases hpcs t with h | ⟨h, -⟩ | h <;> simp [h] at hpc
  | lockKey t m hpc => rcases hpcs t with h | ⟨h, -⟩ | h <;> simp [h] at hpc
  | fnReturn t m v hpc => rcases hpcs t with h | ⟨h, -⟩ | h <;> simp [h] at hpc
  | unlockKey t m v hpc => rcases hpcs t with h | ⟨h, -⟩ | h <;> simp [h] at hpc

/-- Every state reached from `NewMemLock` satisfies `NilMapInv`. -/
theorem locks_nil_of_reachable (keyOf : Nat → Bytes) {r : MemLockRun}
    (h : MemLockReachable keyOf memLockStart r) : NilMapInv r := by
  induction h with
  | refl => exact ⟨rfl, fun _ => .inl rfl⟩
  | step _ hstep ih => exact nilMapInv_step keyOf ih hstep

/-- A call alone on a fresh `MemLock` takes `s.Mutex` and panics at the assignment. -/
theorem memLockStart_reaches_panic (keyOf : Nat → Bytes) (t : Nat) :
    MemLockReachable keyOf memLockStart
      ⟨{ newMemLock with outer := some t },
        Function.update (Function.update (fun _ => .start) t .looking) t
          (.panicked nilMapAssignment)⟩ :=
  .step (.step .refl (.lockOuter _ t rfl rfl)) (.lookupNil _ t (by simp) rfl)

/-- On a `MemLock` from `NewMemLock`, in every interleaving of `DoWithLock` calls with any
keys, no call ever runs `fn` or returns, and each call, run alone, panics with
`assignment to entry in nil map`. -/
theorem newMemLock_doWithLock_panics (keyOf : Nat → Bytes) :
    (∀ r, MemLockReachable keyOf memLockStart r → ∀ t,
      (∀ m, r.pc t ≠ .running m) ∧ (∀ v, r.pc t ≠ .returned v)) ∧
    ∀ t, ∃ r, MemLockReachable keyOf memLockStart r ∧
      r.pc t = .panicked nilMapAssignment := by
  refine ⟨fun r hr t => ?_, fun t => ⟨_, memLockStart_reaches_panic keyOf t, by simp⟩⟩
  rcases (locks_nil_of_reachable keyOf hr).2 t with h | ⟨h, -⟩ | h <;> simp [h]

end GoBuildCache.Dedupe
