import GoBuildCache.Broker.Output

/-!
# `Run` returns on every schedule

Whatever the backend answers, whether or not writes fail, and however the goroutines are
interleaved, `Run` returns: no schedule gets stuck before it does, and none goes on forever.
This is deadlock freedom and termination of the broker; together they say that a schedule that
cannot be extended has `Run` returned.

* `LockInv`: the writer's mutex is locked exactly while a goroutine holds it.  `ResultInv`: a call
  of `sfGroup` that is not done is run by its leader, and a call holds its result once it is done
  or its leader is past `fn`.  Both hold along every run (`lockInv_of_reachable`,
  `resultInv_of_reachable`).
* `exists_handler_step`, `exists_run_step`, `no_deadlock`: before `Run` returns, someone can take
  a step.  A goroutine waiting in `c.wg.Wait()` waits for a leader that can go on; one blocked on
  `cp.writer.Lock()` waits for the holder, who can go on; `Run` blocked in `wg.Wait()` waits for a
  goroutine that has not returned.
* `World.measure`: twelve per byte of input left, plus how far `Run` and each goroutine are from
  returning, plus one per backend call that has not taken effect.  Every step makes it smaller
  (`Step.measure_lt`): reading a request consumes input, which pays for the goroutine it starts,
  and a goroutine's step into a backend call pays for the call's effect.  So the steps are well
  founded (`step_wellFounded`).
* `every_schedule_returns`: from every state of a run, every schedule is finite, and one that
  cannot be extended has `Run` returned.
-/

namespace GoBuildCache.Broker

open Protocol

variable {σ : Type}

/-! ## The writer's mutex -/

/-- The mutex is locked exactly while one goroutine holds it. -/
structure LockInv (hs : List Handler) (locked : Bool) : Prop where
  one : OneHolder hs
  locked : locked = true ↔ ∃ x ∈ hs, x.pc.holdsLock = true

namespace LockInv

variable {hs : List Handler} {locked : Bool} {i : Nat} {x y : Handler}

/-- An unlocked mutex has no holder. -/
theorem free (hi : LockInv hs false) : ∀ x ∈ hs, x.pc.holdsLock = false :=
  fun x hx => Bool.eq_false_iff.2 fun hl => Bool.false_ne_true (hi.locked.2 ⟨x, hx, hl⟩)

theorem append_start (hi : LockInv hs locked) {new : List Handler}
    (hn : ∀ x ∈ new, x.pc = .start) : LockInv (hs ++ new) locked := by
  refine ⟨hi.one.append_start hn, hi.locked.trans
    ⟨fun ⟨z, hz, hl⟩ => ⟨z, List.mem_append_left _ hz, hl⟩, fun ⟨z, hz, hl⟩ => ?_⟩⟩
  rcases List.mem_append.1 hz with hz | hz
  · exact ⟨z, hz, hl⟩
  · rw [hn z hz] at hl; cases hl

/-- A goroutine moves between places alike in holding the mutex. -/
theorem set (hi : LockInv hs locked) (hx : hs[i]? = some x) (h : y.pc.holdsLock = x.pc.holdsLock) :
    LockInv (hs.set i y) locked := by
  refine ⟨hi.one.set hx fun hy => .inl (h ▸ hy),
    hi.locked.trans ⟨fun ⟨z, hz, hl⟩ => ?_, ?_⟩⟩
  · obtain ⟨j, hj⟩ := List.mem_iff_getElem?.1 hz
    by_cases hij : i = j
    · subst hij
      exact ⟨y, List.getElem?_mem ((getElem?_set_of hx y i).trans (if_pos rfl)),
        h.trans (Option.some.inj (hx.symm.trans hj) ▸ hl)⟩
    · exact ⟨z, List.getElem?_mem (((getElem?_set_of hx y j).trans (if_neg hij)).trans hj), hl⟩
  · rintro ⟨z, hz, hl⟩
    rcases List.mem_or_eq_of_mem_set hz with hz | rfl
    · exact ⟨z, hz, hl⟩
    · exact ⟨x, List.getElem?_mem hx, h ▸ hl⟩

/-- `cp.writer.Lock()` on the unlocked mutex. -/
theorem acquire (hi : LockInv hs false) (hx : hs[i]? = some x) (hy : y.pc.holdsLock = true) :
    LockInv (hs.set i y) true :=
  ⟨hi.one.set hx fun _ => .inr hi.free,
    iff_of_true rfl ⟨y, List.getElem?_mem ((getElem?_set_of hx y i).trans (if_pos rfl)), hy⟩⟩

/-- The deferred `Unlock()` of the holder. -/
theorem release (hi : LockInv hs locked) (hx : hs[i]? = some x) (hxl : x.pc.holdsLock = true)
    (hy : y.pc.holdsLock = false) : LockInv (hs.set i y) false := by
  refine ⟨hi.one.set hx fun h => absurd (hy.symm.trans h) Bool.false_ne_true,
    iff_of_false Bool.false_ne_true ?_⟩
  rintro ⟨z, hz, hl⟩
  obtain ⟨j, hj⟩ := List.mem_iff_getElem?.1 hz
  rcases getElem?_set_cases hx hj with ⟨-, rfl⟩ | ⟨hji, hj⟩
  · rw [hy] at hl; cases hl
  · rw [hi.one.others hx hxl j z hji hj] at hl; cases hl

end LockInv

section Lock

variable {B : Backend σ} {faults : Bool} {input : Bytes} {s : σ} {w w' : World σ}

theorem lockInv_step (hi : LockInv w.handlers w.locked) (h : Step B faults w w') :
    LockInv w'.handlers w'.locked := by
  rcases h with h | ⟨i, h⟩
  · obtain ⟨new, hn, hs⟩ := h.handlers_eq
    rw [hn, h.locked_eq]
    exact hi.append_start hs
  · cases h with
    | lock _ _ _ hh hl => exact (hl ▸ hi).acquire hh rfl
    | flush _ _ _ hh => exact hi.release hh rfl rfl
    | writeFail _ _ _ _ hh hs _ => exact hi.release hh hs rfl
    | exec => exact hi
    | _ => exact hi.set (by assumption) (by rfl)

theorem lockInv_of_reachable (h : Reachable B faults input s w) : LockInv w.handlers w.locked := by
  induction h with
  | refl => exact ⟨⟨fun h => by simp [World.init] at h⟩, by simp [World.init]⟩
  | tail _ hs ih => exact lockInv_step ih hs

end Lock

/-! ## The calls of `sfGroup` -/

/-- Goroutine `j` runs call `c`: it is in `fn`, or past it before the clean-up. -/
def Runs (hs : List Handler) (j c : Nat) : Prop :=
  ∃ x, hs[j]? = some x ∧ (x.pc = .calling c ∨ x.pc = .called c)

/-- A goroutine that moves keeps running call `c` if it ran it, and others are unchanged. -/
theorem Runs.set {hs : List Handler} {i j c : Nat} {x y : Handler} (h : Runs hs j c)
    (hx : hs[i]? = some x)
    (hxy : x.pc = .calling c ∨ x.pc = .called c → y.pc = .calling c ∨ y.pc = .called c) :
    Runs (hs.set i y) j c := by
  obtain ⟨z, hz, hzc⟩ := h
  by_cases hji : i = j
  · subst hji
    rw [hx, Option.some.injEq] at hz
    exact ⟨y, (getElem?_set_of hx y i).trans (if_pos rfl), hxy (hz ▸ hzc)⟩
  · exact ⟨z, ((getElem?_set_of hx y j).trans (if_neg hji)).trans hz, hzc⟩

/-- What lets a goroutine in `sfGroup.Do` go on: a call that is not done is run by its leader, and
a call holds its result once it is done or its leader has come back from `fn`. -/
structure ResultInv (hs : List Handler) (cs : List Call) : Prop where
  leader : ∀ (c : Nat) (call : Call), cs[c]? = some call → call.done = false →
    Runs hs call.leader c
  done : ∀ (c : Nat) (call : Call), cs[c]? = some call → call.done = true →
    call.result.isSome = true
  called : ∀ (j : Nat) (req : Request) (c : Nat), hs[j]? = some ⟨req, .called c⟩ →
    ∃ call : Call, cs[c]? = some call ∧ call.result.isSome = true

namespace ResultInv

variable {hs : List Handler} {cs : List Call} {i : Nat} {x y : Handler}

theorem append_start (hi : ResultInv hs cs) {new : List Handler}
    (hn : ∀ x ∈ new, x.pc = .start) : ResultInv (hs ++ new) cs := by
  refine ⟨fun c call hc hd => ?_, hi.done, fun j req c hj => ?_⟩
  · obtain ⟨z, hz, hzc⟩ := hi.leader c call hc hd
    exact ⟨z, getElem?_append_of_some new hz, hzc⟩
  · rcases getElem?_append_cases hj with hj | hj
    · exact hi.called j req c hj
    · cases hn _ hj

/-- A goroutine outside `fn` and its clean-up moves to another such place. -/
theorem set (hi : ResultInv hs cs) (hx : hs[i]? = some x)
    (hxr : ∀ c, ¬ (x.pc = .calling c ∨ x.pc = .called c)) (hy : ∀ c, y.pc ≠ .called c) :
    ResultInv (hs.set i y) cs := by
  refine ⟨fun c call hc hd => (hi.leader c call hc hd).set hx fun h => absurd h (hxr c), hi.done,
    fun j req c hj => ?_⟩
  rcases getElem?_set_cases hx hj with ⟨-, h⟩ | ⟨-, hj⟩
  · exact absurd (h ▸ rfl) (hy c)
  · exact hi.called j req c hj

end ResultInv

section Result

variable {B : Backend σ} {faults : Bool} {input : Bytes} {s : σ} {w w' : World σ}

/-- `Do` makes a call for its key: its goroutine leads it. -/
theorem ResultInv.lead (hi : ResultInv w.handlers w.calls) {i : Nat} {req : Request} {key : Bytes}
    (hh : w.handlers[i]? = some ⟨req, .start⟩) :
    ResultInv (w.handlers.set i ⟨req, .calling w.calls.length⟩)
      (w.calls ++ [⟨key, i, none, none, false⟩]) := by
  refine ⟨fun c call hc hd => ?_, fun c call hc hd => ?_, fun j req' c hj => ?_⟩
  · rcases getElem?_concat_cases hc with hc | ⟨rfl, rfl⟩
    · exact (hi.leader c call hc hd).set hh (by simp)
    · exact ⟨_, (getElem?_set_of hh _ i).trans (if_pos rfl), .inl rfl⟩
  · rcases getElem?_concat_cases hc with hc | ⟨-, rfl⟩
    · exact hi.done c call hc hd
    · cases hd
  · rcases getElem?_set_cases hh hj with ⟨-, h⟩ | ⟨-, hj⟩
    · cases h
    · obtain ⟨call, hc, hres⟩ := hi.called j req' c hj
      exact ⟨call, getElem?_append_of_some _ hc, hres⟩

/-- The backend call of `fn` takes effect: the call keeps its leader, result and done flag. -/
theorem ResultInv.setAnswer (hi : ResultInv w.handlers w.calls) {c : Nat} {call : Call}
    (hcall : w.calls[c]? = some call) (a : Option (Except Bytes Payload)) :
    ResultInv w.handlers (w.calls.set c { call with answer := a }) := by
  refine ⟨fun c' call' hc hd => ?_, fun c' call' hc hd => ?_, fun j req c' hj => ?_⟩
  · rcases getElem?_set_cases hcall hc with ⟨rfl, rfl⟩ | ⟨-, hc⟩
    exacts [hi.leader _ call hcall hd, hi.leader c' call' hc hd]
  · rcases getElem?_set_cases hcall hc with ⟨rfl, rfl⟩ | ⟨-, hc⟩
    exacts [hi.done _ call hcall hd, hi.done c' call' hc hd]
  · obtain ⟨call', hc, hres⟩ := hi.called j req c' hj
    rw [getElem?_set_of hcall]
    split
    · subst c'
      rw [hcall, Option.some.injEq] at hc
      exact ⟨_, rfl, hc ▸ hres⟩
    · exact ⟨call', hc, hres⟩

/-- `fn` returns, and `doCall` stores its result. -/
theorem ResultInv.ret (hi : ResultInv w.handlers w.calls) {i c : Nat} {req : Request} {call : Call}
    (hh : w.handlers[i]? = some ⟨req, .calling c⟩) (hcall : w.calls[c]? = some call)
    (r : Except Bytes Payload) :
    ResultInv (w.handlers.set i ⟨req, .called c⟩)
      (w.calls.set c { call with result := some r }) := by
  have hset := getElem?_set_of hcall { call with result := some r }
  refine ⟨fun c' call' hc hd => ?_, fun c' call' hc hd => ?_, fun j req' c' hj => ?_⟩
  · rw [hset] at hc
    split at hc
    · cases hc
      subst c'
      exact (hi.leader c call hcall hd).set hh (by simp)
    · exact (hi.leader c' call' hc hd).set hh (by simp)
  · rw [hset] at hc
    split at hc
    · cases hc; rfl
    · exact hi.done c' call' hc hd
  · rcases getElem?_set_cases hh hj with ⟨-, h⟩ | ⟨-, hj⟩
    · cases h
      exact ⟨_, (hset c).trans (if_pos rfl), rfl⟩
    · obtain ⟨call', hc, hres⟩ := hi.called j req' c' hj
      rw [hset]
      split
      · exact ⟨_, rfl, rfl⟩
      · exact ⟨call', hc, hres⟩

/-- The clean-up of `doCall` marks the call done, its result stored. -/
theorem ResultInv.finish (hi : ResultInv w.handlers w.calls) {i c : Nat} {req : Request}
    {call : Call} {r : Except Bytes Payload} (hh : w.handlers[i]? = some ⟨req, .called c⟩)
    (hcall : w.calls[c]? = some call) (hr : call.result = some r) (pc : HandlerPc)
    (hpc : ∀ c, pc ≠ .calling c ∧ pc ≠ .called c) :
    ResultInv (w.handlers.set i ⟨req, pc⟩) (w.calls.set c { call with done := true }) := by
  have hset := getElem?_set_of hcall { call with done := true }
  refine ⟨fun c' call' hc hd => ?_, fun c' call' hc hd => ?_, fun j req' c' hj => ?_⟩
  · rw [hset] at hc
    split at hc
    · cases hc; cases hd
    · exact (hi.leader c' call' hc hd).set hh fun h =>
        absurd (by simpa using h) ‹c ≠ c'›
  · rw [hset] at hc
    split at hc
    · cases hc; simp [hr]
    · exact hi.done c' call' hc hd
  · rcases getElem?_set_cases hh hj with ⟨-, h⟩ | ⟨-, hj⟩
    · cases h; exact absurd rfl (hpc c').2
    · obtain ⟨call', hc, hres⟩ := hi.called j req' c' hj
      rw [hset]
      split
      · subst c'
        rw [hcall, Option.some.injEq] at hc
        exact ⟨_, rfl, hc ▸ hres⟩
      · exact ⟨call', hc, hres⟩

theorem resultInv_step (hi : ResultInv w.handlers w.calls) (h : Step B faults w w') :
    ResultInv w'.handlers w'.calls := by
  rcases h with h | ⟨i, h⟩
  · obtain ⟨new, hn, hs⟩ := h.handlers_eq
    rw [hn, h.calls_eq]
    exact hi.append_start hs
  · cases h with
    | lead _ _ _ hh _ _ => exact hi.lead hh
    | exec _ _ _ _ _ _ _ hcall => exact hi.setAnswer hcall _
    | ret _ _ _ _ _ _ hh _ hcall => exact hi.ret hh hcall _
    | finish _ _ _ _ hh hcall hr => exact hi.finish hh hcall hr _ fun _ => ⟨nofun, nofun⟩
    | _ => exact hi.set (by assumption) (by simp) (by simp)

theorem resultInv_of_reachable (h : Reachable B faults input s w) :
    ResultInv w.handlers w.calls := by
  induction h with
  | refl => exact ⟨fun _ _ h => by simp [World.init] at h, fun _ _ h => by simp [World.init] at h,
      fun _ _ _ h => by simp [World.init] at h⟩
  | tail _ hs ih => exact resultInv_step ih hs

end Result

/-! ## No deadlock -/

section Progress

variable {B : Backend σ} {faults : Bool} {input : Bytes} {s : σ} {w : World σ}

/-- The leader of a call that is not done can go on: its backend call takes effect or `fn`
returns, or the clean-up runs. -/
theorem exists_leader_step (hf : FlightInv w.handlers w.calls) (hr : ResultInv w.handlers w.calls)
    {j c : Nat} (h : Runs w.handlers j c) : ∃ w', Step B faults w w' := by
  obtain ⟨⟨req, pc⟩, hx, hpc | hpc⟩ := h <;> dsimp only at hpc <;> subst hpc
  · obtain ⟨call, hcall, op, hop⟩ := hf.key j _ c hx rfl
    cases ha : call.answer with
    | none => exact ⟨_, .handler j (.exec w req c call _ op hx hop hcall ha)⟩
    | some r => exact ⟨_, .handler j (.ret w req c call _ op r hx hop hcall ha)⟩
  · obtain ⟨call, hcall, hres⟩ := hr.called j req c hx
    obtain ⟨r, hres⟩ := Option.isSome_iff_exists.1 hres
    exact ⟨_, .handler j (.finish w req c call r hx hcall hres)⟩

/-- The holder of the mutex can go on: its `Write`, `WriteByte` or `Flush` returns. -/
theorem exists_holder_step {j : Nat} {x : Handler} (hx : w.handlers[j]? = some x)
    (hl : x.pc.holdsLock = true) : ∃ w', Step B faults w w' := by
  obtain ⟨req, _ | _ | _ | _ | _ | ⟨resp, _ | d | d | d⟩ | _ | _⟩ := x <;> try cases hl
  · exact ⟨_, .handler j (.write w req resp d hx)⟩
  · exact ⟨_, .handler j (.writeByte w req resp d hx)⟩
  · exact ⟨_, .handler j (.flush w req resp d hx)⟩

/-- A goroutine that has not returned can go on, or waits for one that can. -/
theorem exists_handler_step (hf : FlightInv w.handlers w.calls) (hr : ResultInv w.handlers w.calls)
    (hl : LockInv w.handlers w.locked) {j : Nat} {x : Handler} (hx : w.handlers[j]? = some x)
    (hpc : x.pc ≠ .finished) : ∃ w', Step B faults w w' := by
  obtain ⟨req, pc⟩ := x
  cases pc with
  | start =>
    match hfl : flightOf req with
    | none => exact ⟨_, .handler j (.unknown w req hx hfl)⟩
    | some (key, op) =>
      match hfc : findCall w.calls key with
      | none => exact ⟨_, .handler j (.lead w req key op hx hfl hfc)⟩
      | some c => exact ⟨_, .handler j (.join w req key op c hx hfl hfc)⟩
  | waiting c =>
    obtain ⟨call, hcall, -⟩ := hf.key j _ c hx rfl
    cases hd : call.done
    · exact exists_leader_step hf hr (hr.leader c call hcall hd)
    · obtain ⟨r, hres⟩ := Option.isSome_iff_exists.1 (hr.done c call hcall hd)
      exact ⟨_, .handler j (.wake w req c call r hx hcall hd hres)⟩
  | calling c => exact exists_leader_step hf hr ⟨_, hx, .inl rfl⟩
  | called c => exact exists_leader_step hf hr ⟨_, hx, .inr rfl⟩
  | responding resp =>
    match he : encodeResponse resp with
    | .ok data => exact ⟨_, .handler j (.marshal w req resp data hx he)⟩
    | .error e => exact ⟨_, .handler j (.marshalFail w req resp e hx he)⟩
  | sending resp snd =>
    cases snd with
    | locking data =>
      cases hlk : w.locked
      · exact ⟨_, .handler j (.lock w req resp data hx hlk)⟩
      · obtain ⟨y, hy, hyl⟩ := hl.locked.1 hlk
        obtain ⟨k, hk⟩ := List.mem_iff_getElem?.1 hy
        exact exists_holder_step hk hyl
    | _ => exact exists_holder_step hx rfl
  | reporting e => exact ⟨_, .handler j (.report w req e hx)⟩
  | finished => exact absurd rfl hpc

/-- Once every goroutine has returned, `Run` can go on until it returns. -/
theorem exists_run_step (hl : LockInv w.handlers w.locked) (hd : w.allDone)
    (hm : ∀ r, w.main ≠ .returned r) : ∃ w', RunStep B faults w w' := by
  have hfree : w.locked = false := Bool.eq_false_iff.2 fun h => by
    obtain ⟨x, hx, hxl⟩ := hl.locked.1 h
    rw [hd x hx] at hxl; cases hxl
  match hmain : w.main with
  | .start => exact ⟨_, .handshake w _ hmain hfree encodeResponse_initialResponse⟩
  | .reading =>
    match hrd : readRequest w.input with
    | .error e =>
      by_cases he : e = .eof
      · subst he; exact ⟨_, .readEof w hmain hrd⟩
      · exact ⟨_, .readError w e hmain hrd he⟩
    | .ok (req, rest) =>
      by_cases hc : req.command = cmdClose
      · exact ⟨_, .readClose w req rest hmain hrd hc⟩
      · exact ⟨_, .spawn w req rest hmain hrd hc⟩
  | .checking =>
    match he : w.errChan with
    | some e => exact ⟨_, .checkErr w e hmain he⟩
    | none => exact ⟨_, .checkNone w hmain he⟩
  | .readFailed e => exact ⟨_, .readFailedReturn w e hmain hd⟩
  | .draining req => exact ⟨_, .closeCall w req hmain hd⟩
  | .closing req => exact ⟨_, .closeRet w req hmain⟩
  | .closeSending resp =>
    match he : encodeResponse resp with
    | .ok data => exact ⟨_, .closeSend w resp data hmain hfree he⟩
    | .error e => exact ⟨_, .closeMarshalFail w resp e hmain he⟩
  | .selecting => exact ⟨_, .selectDone w hmain hd⟩
  | .sendFailed e => exact ⟨_, .sendFailedReturn w e hmain hd⟩
  | .returned r => exact absurd hmain (hm r)

/-- Before `Run` returns, some step can be taken. -/
theorem no_deadlock (hr : Reachable B faults input s w) (hm : ∀ r, w.main ≠ .returned r) :
    ∃ w', Step B faults w w' := by
  have hl := lockInv_of_reachable hr
  by_cases hd : w.allDone
  · obtain ⟨w', h⟩ : ∃ w', RunStep B faults w w' := exists_run_step hl hd hm
    exact ⟨w', .run h⟩
  · obtain ⟨x, hx, hpc⟩ : ∃ x ∈ w.handlers, x.pc ≠ .finished := by
      simpa [World.allDone] using hd
    obtain ⟨j, hj⟩ := List.mem_iff_getElem?.1 hx
    exact exists_handler_step (flightInv_of_reachable hr) (resultInv_of_reachable hr) hl hj hpc

end Progress

/-! ## Termination -/

/-- How far `Run` is from returning. -/
def RunPc.rank : RunPc → Nat
  | .start | .checking => 7
  | .reading => 6
  | .draining _ => 5
  | .closing _ => 4
  | .closeSending _ => 3
  | .selecting => 2
  | .readFailed _ | .sendFailed _ => 1
  | .returned _ => 0

/-- How far a goroutine is from returning. -/
def HandlerPc.rank : HandlerPc → Nat
  | .start => 10
  | .calling _ => 8
  | .waiting _ | .called _ => 7
  | .responding _ => 6
  | .sending _ (.locking _) => 5
  | .sending _ (.writing _) => 4
  | .sending _ (.newline _) => 3
  | .sending _ (.flushing _) => 2
  | .reporting _ => 1
  | .finished => 0

/-- A backend call that has not taken effect. -/
def Call.unanswered (c : Call) : Nat := if c.answer.isNone then 1 else 0

/-- The sum of `f` over a list. -/
def weight {α : Type} (f : α → Nat) : List α → Nat
  | [] => 0
  | x :: l => f x + weight f l

/-- Twelve per byte of input left, how far `Run` and the goroutines are from returning, and one
per backend call that has not taken effect. -/
def World.measure (w : World σ) : Nat :=
  12 * w.input.length + w.main.rank + weight (fun x => x.pc.rank) w.handlers +
    weight Call.unanswered w.calls

theorem weight_set {α : Type} (f : α → Nat) : ∀ {l : List α} {i : Nat} {x : α}, l[i]? = some x →
    ∀ y : α, weight f (l.set i y) + f x = weight f l + f y
  | [], _, _, h, _ => nomatch h
  | z :: l, 0, x, h, y => by
    rw [List.getElem?_cons_zero, Option.some.injEq] at h
    subst h
    simp only [List.set_cons_zero, weight]
    omega
  | z :: l, i + 1, x, h, y => by
    have := weight_set f (List.getElem?_cons_succ.symm.trans h) y
    simp only [List.set_cons_succ, weight]
    omega

theorem weight_set_of_eq {α : Type} (f : α → Nat) {l : List α} {i : Nat} {x y : α}
    (h : l[i]? = some x) (hf : f y = f x) : weight f (l.set i y) = weight f l := by
  have := weight_set f h y
  omega

theorem weight_append {α : Type} (f : α → Nat) (l l' : List α) :
    weight f (l ++ l') = weight f l + weight f l' := by
  induction l with
  | nil => simp [weight]
  | cons x l ih => rw [List.cons_append, weight, weight, ih, Nat.add_assoc]

section Termination

variable {B : Backend σ} {faults : Bool} {w w' : World σ}

theorem RunStep.measure_lt (h : RunStep B faults w w') : w'.measure < w.measure := by
  cases h with
  | readClose _ _ hm hr _ | spawn _ _ hm hr _ =>
    have := length_lt_of_readRequest hr
    simp only [World.measure, hm, RunPc.rank, weight_append, weight, HandlerPc.rank]
    omega
  | _ => simp only [World.measure, RunPc.rank, *]; omega

/-- A goroutine's step moves it closer to returning, or makes its backend call take effect. -/
theorem HandlerStep.rank_lt {i : Nat} (h : HandlerStep B faults i w w') :
    ∃ x y, w.handlers[i]? = some x ∧ w'.handlers = w.handlers.set i y ∧
      y.pc.rank + weight Call.unanswered w'.calls < x.pc.rank + weight Call.unanswered w.calls := by
  cases h with
  | lead _ _ _ hh =>
    refine ⟨_, _, hh, rfl, ?_⟩
    simp only [weight_append, weight, Call.unanswered, HandlerPc.rank, Option.isNone_none, if_true]
    omega
  | exec _ _ call _ op hh _ hcall ha =>
    have := weight_set Call.unanswered hcall { call with answer := some (B.call w.backend op).1 }
    refine ⟨_, _, hh, (set_eq_of_getElem? hh).symm, ?_⟩
    simp only [Call.unanswered, ha, Option.isNone_none, Option.isNone_some, if_true, Bool.false_eq_true,
      if_false] at this ⊢
    omega
  | ret _ _ call _ _ r hh _ hcall =>
    refine ⟨_, _, hh, rfl, ?_⟩
    rw [weight_set_of_eq Call.unanswered hcall (y := { call with result := some r }) rfl]
    simp [HandlerPc.rank]
  | finish _ _ call _ hh hcall =>
    refine ⟨_, _, hh, rfl, ?_⟩
    rw [weight_set_of_eq Call.unanswered hcall (y := { call with done := true }) rfl]
    simp [HandlerPc.rank]
  | writeFail _ _ s _ hh hs _ =>
    cases s
    · cases hs
    all_goals exact ⟨_, _, hh, rfl, by simp [HandlerPc.rank]⟩
  | _ => exact ⟨_, _, by assumption, rfl, by simp [HandlerPc.rank]⟩

/-- Every step makes the measure smaller. -/
theorem Step.measure_lt (h : Step B faults w w') : w'.measure < w.measure := by
  rcases h with h | ⟨i, h⟩
  · exact h.measure_lt
  · obtain ⟨x, y, hx, hs, hlt⟩ := h.rank_lt
    have hsum := weight_set (fun x => x.pc.rank) hx y
    simp only [World.measure, hs, h.main_eq.1, h.main_eq.2] at hsum ⊢
    omega

/-- No schedule of the broker goes on forever. -/
theorem step_wellFounded : WellFounded fun w' w : World σ => Step B faults w w' :=
  Subrelation.wf (fun h => Step.measure_lt h) (InvImage.wf World.measure Nat.lt_wfRel.wf)

end Termination

section Returns

variable {B : Backend σ} {faults : Bool} {input : Bytes} {s : σ} {w : World σ}

/-- `Run` returns on every schedule: from every state of a run, every schedule is finite, and one
that cannot be extended has `Run` returned. -/
theorem every_schedule_returns (hr : Reachable B faults input s w) :
    Acc (fun w' w => Step B faults w w') w ∧
      ((∀ w', ¬ Step B faults w w') → ∃ r, w.main = .returned r) := by
  refine ⟨step_wellFounded.apply w, fun hn => ?_⟩
  by_contra hm
  obtain ⟨w', h⟩ := no_deadlock hr fun r hr' => hm ⟨r, hr'⟩
  exact hn w' h

theorem twoGets_returns :
    Acc (fun w' w => Step mapBackend true w w') (World.init twoGets fun _ => none) ∧
      ((∀ w', ¬ Step mapBackend true (World.init twoGets fun _ => none) w') →
        ∃ r, (World.init (σ := Bytes → Option (Bytes × Int64)) twoGets fun _ => none).main =
          .returned r) :=
  every_schedule_returns Relation.ReflTransGen.refl

end Returns

end GoBuildCache.Broker
