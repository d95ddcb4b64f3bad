import GoBuildCache.Broker.Run

/-!
# The calls of `sfGroup`

`HandleRequest` runs the backend call of a put or a get inside `sfGroup.Do` under the key
`put:<hex>` or `get:<hex>`.  This module proves what the group keeps over every run.

* `FlightInv`: a goroutine in `Do` is at a call of its own key; the goroutine that made a call runs
  it, and the call stays in the map until that goroutine cleans it up; no two calls in the map have
  one key.  `flightInv_of_reachable` carries it along every run.
* `backend_calls_distinct`: the promise that the `Backend` interface states of its caller, that
  there are never two backend calls of the same type for the same action id in flight.
-/

namespace GoBuildCache.Broker

open Protocol

variable {σ : Type}

/-! ## Keys -/

theorem putKey_injective : Function.Injective putKey := fun _ _ h =>
  Hex.encodeToString_injective (List.append_cancel_left h)

theorem getKey_injective : Function.Injective getKey := fun _ _ h =>
  Hex.encodeToString_injective (List.append_cancel_left h)

theorem putKey_ne_getKey (a b : Bytes) : putKey a ≠ getKey b := by
  have hp : ascii "put:" = [112, 117, 116, 58] := by decide
  have hg : ascii "get:" = [103, 101, 116, 58] := by decide
  rw [putKey, getKey, hp, hg]
  exact fun h => absurd (List.cons.inj h).1 (by decide)

/-- The key of a backend call made in `Do`. -/
def Op.key : Op → Bytes
  | .put a _ _ _ => putKey a
  | .get a => getKey a
  | .close => []

/-- The key `flightOf` gives is the key of its call. -/
theorem flightOf_key {req : Request} {key : Bytes} {op : Op} (h : flightOf req = some (key, op)) :
    key = op.key := by
  unfold flightOf at h
  split_ifs at h <;> cases h <;> rfl

/-- Requests of one command for one action id pass one key to `Do`. -/
theorem flightOf_key_of_eq {req req' : Request} (hc : req.command = req'.command)
    (ha : req.actionID = req'.actionID) {key key' : Bytes} {op op' : Op}
    (h : flightOf req = some (key, op)) (h' : flightOf req' = some (key', op')) : key = key' := by
  unfold flightOf at h h'
  rw [hc, ha] at h
  split_ifs at h h' <;> simp only [Option.some.injEq, Prod.mk.injEq] at h h' <;>
    exact h.1.symm.trans h'.1

/-! ## The map of `sfGroup` -/

/-- The call `findCall` finds is a call of the key that is not done. -/
theorem findCall_eq_some {calls : List Call} {key : Bytes} {c : Nat} (h : findCall calls key = some c) :
    ∃ call, calls[c]? = some call ∧ call.key = key ∧ call.done = false := by
  obtain ⟨hc, hp, -⟩ := List.findIdx?_eq_some_iff_getElem.1 h
  simp only [Bool.and_eq_true, beq_iff_eq, Bool.not_eq_true'] at hp
  exact ⟨_, List.getElem?_eq_getElem hc, hp⟩

/-- When `findCall` finds nothing, every call of the key is done. -/
theorem findCall_eq_none {calls : List Call} {key : Bytes} (h : findCall calls key = none)
    {c : Nat} {call : Call} (hc : calls[c]? = some call) (hk : call.key = key) : call.done = true := by
  have := List.findIdx?_eq_none_iff.1 h call (List.getElem?_mem hc)
  simpa [hk] using this

/-- The call a goroutine in `sfGroup.Do` waits for, runs, or has run. -/
def HandlerPc.call? : HandlerPc → Option Nat
  | .waiting c | .calling c | .called c => some c
  | _ => none

/-- What the group keeps: a goroutine in `Do` is at a call of its own key; the goroutine that made
a call and has not cleaned it up is its leader, and the call is not done; two calls that are not
done have different keys. -/
structure FlightInv (handlers : List Handler) (calls : List Call) : Prop where
  key : ∀ (j : Nat) (x : Handler) (c : Nat), handlers[j]? = some x → x.pc.call? = some c →
    ∃ call : Call, calls[c]? = some call ∧ ∃ op, flightOf x.req = some (call.key, op)
  leads : ∀ (j : Nat) (x : Handler) (c : Nat), handlers[j]? = some x →
    x.pc = .calling c ∨ x.pc = .called c →
    ∃ call : Call, calls[c]? = some call ∧ call.leader = j ∧ call.done = false
  unique : ∀ (c c' : Nat) (call call' : Call), calls[c]? = some call → calls[c']? = some call' →
    call.done = false → call'.done = false → call.key = call'.key → c = c'

namespace FlightInv

variable {hs : List Handler} {cs : List Call}

/-- New goroutines start outside `Do`. -/
theorem append (hi : FlightInv hs cs) {new : List Handler} (hn : ∀ x ∈ new, x.pc = .start) :
    FlightInv (hs ++ new) cs := by
  refine ⟨fun j x c hx hc => ?_, fun j x c hx hl => ?_, hi.unique⟩
  · rcases getElem?_append_cases hx with hx | hx
    · exact hi.key j x c hx hc
    · rw [hn x hx] at hc; cases hc
  · rcases getElem?_append_cases hx with hx | hx
    · exact hi.leads j x c hx hl
    · rw [hn x hx] at hl; rcases hl with hl | hl <;> cases hl

/-- Goroutine `i` moves to `pc'`, at a call of its key that it leads if it runs it. -/
theorem setHandler (hi : FlightInv hs cs) {i : Nat} {req : Request} {pc pc' : HandlerPc}
    (hh : hs[i]? = some ⟨req, pc⟩)
    (hkey : ∀ c, pc'.call? = some c →
      ∃ call : Call, cs[c]? = some call ∧ ∃ op, flightOf req = some (call.key, op))
    (hlead : ∀ c, pc' = .calling c ∨ pc' = .called c →
      ∃ call : Call, cs[c]? = some call ∧ call.leader = i ∧ call.done = false) :
    FlightInv (hs.set i ⟨req, pc'⟩) cs := by
  refine ⟨fun j x c hx hc => ?_, fun j x c hx hl => ?_, hi.unique⟩
  · rcases getElem?_set_cases hh hx with ⟨-, rfl⟩ | ⟨-, hx⟩
    · exact hkey c hc
    · exact hi.key j x c hx hc
  · rcases getElem?_set_cases hh hx with ⟨rfl, rfl⟩ | ⟨-, hx⟩
    · exact hlead c hl
    · exact hi.leads j x c hx hl

/-- Goroutine `i` moves to a place outside `Do`. -/
theorem leave (hi : FlightInv hs cs) {i : Nat} {req : Request} {pc pc' : HandlerPc}
    (hh : hs[i]? = some ⟨req, pc⟩) (hpc : pc'.call? = none) : FlightInv (hs.set i ⟨req, pc'⟩) cs :=
  hi.setHandler hh (fun _ h => by rw [hpc] at h; cases h)
    (fun _ h => by rcases h with rfl | rfl <;> cases hpc)

/-- `Do` adds a call for a key that has none. -/
theorem addCall (hi : FlightInv hs cs) {key : Bytes} (hc : findCall cs key = none) (i : Nat) :
    FlightInv hs (cs ++ [⟨key, i, none, none, false⟩]) := by
  refine ⟨fun j x c hx hxc => ?_, fun j x c hx hl => ?_, fun c c' call call' h1 h2 hd1 hd2 hk => ?_⟩
  · obtain ⟨call, h1, h2⟩ := hi.key j x c hx hxc
    exact ⟨call, getElem?_append_of_some _ h1, h2⟩
  · obtain ⟨call, h1, h2⟩ := hi.leads j x c hx hl
    exact ⟨call, getElem?_append_of_some _ h1, h2⟩
  · rcases getElem?_concat_cases h1 with h1 | ⟨rfl, rfl⟩ <;>
      rcases getElem?_concat_cases h2 with h2 | ⟨rfl, rfl⟩
    · exact hi.unique c c' call call' h1 h2 hd1 hd2 hk
    · exact absurd (findCall_eq_none hc h1 hk) (by simp [hd1])
    · exact absurd (findCall_eq_none hc h2 hk.symm) (by simp [hd2])
    · rfl

/-- Storing an answer or a result in a call keeps what the group keeps. -/
theorem setCall (hi : FlightInv hs cs) {c : Nat} {call : Call} (hc : cs[c]? = some call)
    (call' : Call) (hk : call'.key = call.key) (hl : call'.leader = call.leader)
    (hd : call'.done = call.done) : FlightInv hs (cs.set c call') := by
  have hnew : ∀ {c' : Nat} {x : Call}, cs[c']? = some x →
      ∃ x' : Call, (cs.set c call')[c']? = some x' ∧
        x'.key = x.key ∧ x'.leader = x.leader ∧ x'.done = x.done := by
    intro c' x h
    rw [getElem?_set_of hc]
    split
    · subst c'; rw [hc] at h; cases h; exact ⟨_, rfl, hk, hl, hd⟩
    · exact ⟨_, h, rfl, rfl, rfl⟩
  have hold : ∀ {c' : Nat} {x' : Call}, (cs.set c call')[c']? = some x' →
      ∃ x : Call, cs[c']? = some x ∧ x'.key = x.key ∧ x'.done = x.done := fun h => by
    rcases getElem?_set_cases hc h with ⟨rfl, rfl⟩ | ⟨-, h⟩
    · exact ⟨call, hc, hk, hd⟩
    · exact ⟨_, h, rfl, rfl⟩
  refine ⟨fun j x c' hx hxc => ?_, fun j x c' hx hl => ?_, fun c₁ c₂ y₁ y₂ h₁ h₂ hd₁ hd₂ hk => ?_⟩
  · obtain ⟨y, hy, op, hf⟩ := hi.key j x c' hx hxc
    obtain ⟨y', hy', hk, -⟩ := hnew hy
    exact ⟨y', hy', op, hk ▸ hf⟩
  · obtain ⟨y, hy, hl, hd⟩ := hi.leads j x c' hx hl
    obtain ⟨y', hy', -, hl', hd'⟩ := hnew hy
    exact ⟨y', hy', hl' ▸ hl, hd' ▸ hd⟩
  · obtain ⟨x₁, hx₁, hk₁, e₁⟩ := hold h₁
    obtain ⟨x₂, hx₂, hk₂, e₂⟩ := hold h₂
    exact hi.unique c₁ c₂ x₁ x₂ hx₁ hx₂ (e₁ ▸ hd₁) (e₂ ▸ hd₂) (hk₁ ▸ hk₂ ▸ hk)

/-- The leader marks its call done once no goroutine runs it. -/
theorem setDone (hi : FlightInv hs cs) {c : Nat} {call : Call} (hc : cs[c]? = some call)
    (hfree : ∀ (j : Nat) (x : Handler), hs[j]? = some x → x.pc ≠ .calling c ∧ x.pc ≠ .called c) :
    FlightInv hs (cs.set c { call with done := true }) := by
  refine ⟨fun j x c' hx hxc => ?_, fun j x c' hx hl => ?_, fun c₁ c₂ y₁ y₂ h₁ h₂ hd₁ hd₂ hk => ?_⟩
  · obtain ⟨y, hy, op, hf⟩ := hi.key j x c' hx hxc
    rw [getElem?_set_of hc]
    split
    · subst c'; rw [hc] at hy; cases hy; exact ⟨_, rfl, op, hf⟩
    · exact ⟨y, hy, op, hf⟩
  · have hne : c ≠ c' := by
      rintro rfl; rcases hl with hl | hl
      exacts [(hfree j x hx).1 hl, (hfree j x hx).2 hl]
    rw [List.getElem?_set_ne hne]
    exact hi.leads j x c' hx hl
  · rcases getElem?_set_cases hc h₁ with ⟨-, rfl⟩ | ⟨-, h₁⟩
    · cases hd₁
    rcases getElem?_set_cases hc h₂ with ⟨-, rfl⟩ | ⟨-, h₂⟩
    · cases hd₂
    exact hi.unique c₁ c₂ y₁ y₂ h₁ h₂ hd₁ hd₂ hk

end FlightInv

theorem flightInv_init (input : Bytes) (s : σ) :
    FlightInv (World.init input s).handlers (World.init input s).calls :=
  ⟨fun _ _ _ h => by simp [World.init] at h, fun _ _ _ h => by simp [World.init] at h,
    fun _ _ _ _ h => by simp [World.init] at h⟩

/-! ## Along every run -/

section Runs

variable {B : Backend σ} {faults : Bool} {input : Bytes} {s : σ} {w w' : World σ}

/-- The last goroutine of a call, which ran it, marks it done: no goroutine runs it any more. -/
theorem FlightInv.free_of_finish {hs : List Handler} {cs : List Call} (hi : FlightInv hs cs)
    {i c : Nat} {req : Request} {pc : HandlerPc} (hh : hs[i]? = some ⟨req, .called c⟩) :
    ∀ (j : Nat) (x : Handler), (hs.set i ⟨req, pc⟩)[j]? = some x →
      x.pc = .calling c ∨ x.pc = .called c → j ≠ i → False := by
  intro j x hx hp hj
  obtain ⟨y, hy, hl, -⟩ := hi.leads i _ c hh (.inr rfl)
  rcases getElem?_set_cases hh hx with ⟨rfl, -⟩ | ⟨-, hx⟩
  · exact hj rfl
  · obtain ⟨y', hy', hl', -⟩ := hi.leads j x c hx hp
    rw [hy] at hy'
    cases hy'
    exact hj (hl'.symm.trans hl)

/-- One step of the broker keeps what the group keeps. -/
theorem flightInv_step (hi : FlightInv w.handlers w.calls) (h : Step B faults w w') :
    FlightInv w'.handlers w'.calls := by
  rcases h with h | ⟨i, h⟩
  · obtain ⟨new, hn, hs⟩ := h.handlers_eq
    rw [hn, h.calls_eq]
    exact hi.append hs
  · cases h with
    | lead req key op hh hf hc =>
      have hnew := List.getElem?_concat_length w.calls (⟨key, i, none, none, false⟩ : Call)
      exact (hi.addCall hc i).setHandler hh (fun c h => by cases h; exact ⟨_, hnew, op, hf⟩)
        (fun c h => by rcases h with h | h <;> cases h; exact ⟨_, hnew, rfl, rfl⟩)
    | join req key op c hh hf hc =>
      obtain ⟨call, h1, rfl, -⟩ := findCall_eq_some hc
      exact hi.setHandler hh (fun c' h => by cases h; exact ⟨call, h1, op, hf⟩)
        (fun c' h => by rcases h with h | h <;> cases h)
    | exec req c call key op hh hf hcall => exact hi.setCall hcall _ rfl rfl rfl
    | ret req c call key op r hh hf hcall =>
      obtain ⟨y, hy, hl, hd⟩ := hi.leads i _ c hh (.inl rfl)
      obtain ⟨y', hy', op', hf'⟩ := hi.key i _ c hh rfl
      rw [hcall] at hy hy'
      cases hy; cases hy'
      have hnew : (w.calls.set c { call with result := some r })[c]? = some { call with result := some r } := by
        rw [getElem?_set_of hcall, if_pos rfl]
      exact (hi.setCall hcall { call with result := some r } rfl rfl rfl).setHandler hh (fun c' h => by cases h; exact ⟨_, hnew, op', hf'⟩)
        (fun c' h => by rcases h with h | h <;> cases h; exact ⟨_, hnew, hl, hd⟩)
    | finish req c call r hh hcall hr =>
      refine (hi.leave hh (by rfl)).setDone hcall fun j x hx => ?_
      have hfree := hi.free_of_finish hh j x hx
      rcases getElem?_set_cases hh hx with ⟨-, rfl⟩ | ⟨hj, -⟩
      · exact ⟨nofun, nofun⟩
      · exact ⟨fun hp => hfree (.inl hp) hj, fun hp => hfree (.inr hp) hj⟩
    | unknown _ hh _ | wake _ _ _ _ hh _ _ _ | marshal _ _ _ hh _ | marshalFail _ _ _ hh _
    | lock _ _ _ hh _ | write _ _ _ hh | writeByte _ _ _ hh | flush _ _ _ hh
    | writeFail _ _ _ _ hh _ _ | report _ _ hh => exact hi.leave hh rfl

theorem flightInv_of_reachable (h : Reachable B faults input s w) : FlightInv w.handlers w.calls := by
  induction h with
  | refl => exact flightInv_init input s
  | tail _ hs ih => exact flightInv_step ih hs

end Runs

/-! ## The promise of the backend interface -/

/-- A backend that keeps a map from action id to output id and size, its `Put` and `Get` each
one atomic step, as the in-memory backends of the repository's tests are.  `Put` gives the hex of the
action id as the disk path. -/
def mapBackend : Backend (Bytes → Option (Bytes × Int64)) where
  put m a o _ n := (.ok (Hex.encodeToString a), fun b => if b = a then some (o, n) else m b)
  get m a := (.ok (match m a with
    | none => ⟨[], [], Int64.zero, none, true⟩
    | some (o, n) => ⟨o, Hex.encodeToString a, n, none, false⟩), m)
  close m := (.ok (), m)

/-- The frame of a get, with no blank line before it. -/
def getFrame (id : Int64) (a : Bytes) : Frame := ⟨[], id, cmdGet, a, [], Int64.zero, [], []⟩

/-- Two gets of the action id `[1]`. -/
def twoGets : Bytes := encodeFrames [getFrame (Int64.ofInt 1) [1], getFrame (Int64.ofInt 2) [1]]

section Promise

variable {B : Backend σ} {faults : Bool} {input : Bytes} {s : σ} {w : World σ}

/-- The promise the `Backend` interface states of its caller: no two backend calls of one type
for one action id are in flight at once.  A goroutine runs the backend call of `Do` from its
`lead` step, which logs the call, to its `ret` step, which logs the return. -/
theorem backend_calls_distinct (hr : Reachable B faults input s w) {j j' c c' : Nat}
    {x x' : Handler} (hx : w.handlers[j]? = some x) (hx' : w.handlers[j']? = some x')
    (hc : x.pc = .calling c) (hc' : x'.pc = .calling c')
    (hcmd : x.req.command = x'.req.command) (ha : x.req.actionID = x'.req.actionID) : j = j' := by
  have hi := flightInv_of_reachable hr
  obtain ⟨y, hy, op, hf⟩ := hi.key j x c hx (by rw [hc]; rfl)
  obtain ⟨y', hy', op', hf'⟩ := hi.key j' x' c' hx' (by rw [hc']; rfl)
  obtain ⟨z, hz, hl, hd⟩ := hi.leads j x c hx (.inl hc)
  obtain ⟨z', hz', hl', hd'⟩ := hi.leads j' x' c' hx' (.inl hc')
  rw [hy] at hz
  rw [hy'] at hz'
  cases hz
  cases hz'
  obtain rfl := hi.unique c c' y y' hy hy' hd hd' (flightOf_key_of_eq hcmd ha hf hf')
  rw [hy] at hy'
  cases hy'
  exact hl.symm.trans hl'

/-- The first get of `twoGets` in its backend call, the second waiting for that call: the first
goroutine is the only one in a backend `Get([1])`. -/
theorem twoGets_one_call : ∃ w : World (Bytes → Option (Bytes × Int64)),
    Reachable mapBackend false twoGets (fun _ => none) w ∧
      w.handlers[0]? = some ⟨(getFrame (Int64.ofInt 1) [1]).request, .calling 0⟩ ∧
      ∀ (j c : Nat) (x : Handler), w.handlers[j]? = some x → x.pc = .calling c →
        x.req.command = cmdGet → x.req.actionID = [1] → j = 0 := by
  obtain ⟨w, hr, hh⟩ : ∃ w : World (Bytes → Option (Bytes × Int64)),
      Reachable mapBackend false twoGets (fun _ => none) w ∧
        w.handlers[0]? = some ⟨(getFrame (Int64.ofInt 1) [1]).request, .calling 0⟩ :=
    ⟨_, .head (.run (.handshake _ _ rfl rfl encodeResponse_initialResponse)) <|
      .head (.run (.spawn _ _ _ rfl (readRequest_encode _ (by decide) _) (by decide))) <|
      .head (.run (.checkNone _ rfl rfl)) <|
      .head (.run (.spawn _ _ _ rfl (readRequest_encode _ (by decide) []) (by decide))) <|
      .head (.run (.checkNone _ rfl rfl)) <|
      .head (.handler 0 (.lead _ _ _ _ rfl rfl rfl)) <|
      .head (.handler 1 (.join _ _ _ _ 0 rfl rfl rfl)) .refl, rfl⟩
  exact ⟨w, hr, hh, fun j c x hx hc hcmd ha => backend_calls_distinct hr hx hh hc rfl hcmd ha⟩

end Promise

end GoBuildCache.Broker
