import GoBuildCache.Broker.Linearize

/-!
# Where a response comes from

A goroutine's response to a put or a get is built from what `sfGroup.Do` returned, and `Do`
returns the result of a call of the request's key, which its leader's backend call returned.
This module traces every response back to one return in the log.

* `ProvInv`: every result stored in a call was returned by a backend call of the call's key;
  every response a goroutine holds, and every response a goroutine wrote, answers its request with
  what a backend call of the request's key returned before (`Served`).  `provInv_of_reachable`
  carries it along every run; it rests on `FlightInv`, which ties a goroutine in `Do` to a call of
  its own key.
* `AtomicMap`: a backend whose `Put` sets the entry of its action id and whose `Get` reads it and
  changes nothing, each as it takes effect.
* `get_reflects_backend`: over every run and schedule with such a backend, the response written
  for a get carries the result of a backend `Get` of its action id that returned before the write,
  and reads the last `Put` of the action id that returned before that `Get` was called.  It reads
  it off the order in which the backend calls take effect (`Broker/Linearize`).
* `get_after_put_misses`: that `Get` can be older than the request.  A get read after the response
  to a put of its action id was written joins a `Get` of an earlier request that returned before
  the `Put` and is still in the group's map, and answers a miss.
-/

namespace GoBuildCache.Broker

open Protocol

variable {σ : Type}

/-! ## Responses and their backend returns -/

/-- The response a goroutine holds, from the return of `HandleRequest` to the return of
`SendResponse`. -/
def HandlerPc.response? : HandlerPc → Option Response
  | .responding resp | .sending resp _ => some resp
  | _ => none

/-- A response written by a goroutine. -/
def Event.isHandlerWrite : Event → Bool
  | .wrote (some _) _ => true
  | _ => false

/-- `resp` answers `req` with what a backend call of the key `key` returned before position `p`
of the log. -/
def Served (log : List Event) (p : Nat) (req : Request) (key : Bytes) (resp : Response) : Prop :=
  ∃ q < p, ∃ (who : Option Nat) (op : Op) (r : Except Bytes Payload),
    log[q]? = some (.ret who op r) ∧ op.key = key ∧ resp = respond req.id r

theorem Served.append {log : List Event} {p : Nat} {req : Request} {key : Bytes} {resp : Response}
    (h : Served log p req key resp) (hp : p ≤ log.length) (es : List Event) :
    Served (log ++ es) p req key resp := by
  obtain ⟨q, hq, who, op, r, h1, h2⟩ := h
  exact ⟨q, hq, who, op, r, by rw [List.getElem?_append_left (by omega), h1], h2⟩

/-- What the broker keeps of where results and responses come from. -/
structure ProvInv (hs : List Handler) (cs : List Call) (log : List Event) : Prop where
  calls : ∀ (c : Nat) (call : Call) (r : Except Bytes Payload), cs[c]? = some call →
    call.result = some r → ∃ (q : Nat) (who : Option Nat) (op : Op),
      log[q]? = some (.ret who op r) ∧ op.key = call.key
  handlers : ∀ (j : Nat) (x : Handler) (resp : Response) (key : Bytes) (op : Op), hs[j]? = some x →
    x.pc.response? = some resp → flightOf x.req = some (key, op) →
    Served log log.length x.req key resp
  wrote : ∀ (p j : Nat) (resp : Response), log[p]? = some (.wrote (some j) resp) →
    ∃ x : Handler, hs[j]? = some x ∧
      ∀ key op, flightOf x.req = some (key, op) → Served log p x.req key resp

namespace ProvInv

variable {hs : List Handler} {cs : List Call} {log : List Event}

/-- Events appended to the log, each write of a goroutine among them answering from a return
before it. -/
theorem extend_of (hi : ProvInv hs cs log) {es : List Event}
    (hnew : ∀ p j resp, log.length ≤ p → (log ++ es)[p]? = some (.wrote (some j) resp) →
      ∃ x : Handler, hs[j]? = some x ∧
        ∀ key op, flightOf x.req = some (key, op) → Served (log ++ es) p x.req key resp) :
    ProvInv hs cs (log ++ es) := by
  refine ⟨fun c call r hc hr => ?_, fun j x resp key op hx hr hf => ?_, fun p j resp h => ?_⟩
  · obtain ⟨q, who, op, h1, h2⟩ := hi.calls c call r hc hr
    have hq := (List.getElem?_eq_some_iff.1 h1).1
    exact ⟨q, who, op, by rw [List.getElem?_append_left hq, h1], h2⟩
  · exact ((hi.handlers j x resp key op hx hr hf).append le_rfl es).imp fun q ⟨hq, h⟩ =>
      ⟨by simp only [List.length_append]; omega, h⟩
  · rcases Nat.lt_or_ge p log.length with hp | hp
    · obtain ⟨x, hx, hs⟩ := hi.wrote p j resp ((List.getElem?_append_left hp).symm.trans h)
      exact ⟨x, hx, fun key op hf => (hs key op hf).append hp.le es⟩
    · exact hnew p j resp hp h

/-- Events other than a goroutine's write. -/
theorem extend (hi : ProvInv hs cs log) {es : List Event} (hes : es.any Event.isHandlerWrite = false) :
    ProvInv hs cs (log ++ es) :=
  hi.extend_of fun _ _ _ hp h => absurd (List.any_eq_false.1 hes _
    (List.getElem?_mem ((List.getElem?_append_right hp).symm.trans h))) (by simp [Event.isHandlerWrite])

/-- New goroutines hold no response. -/
theorem append (hi : ProvInv hs cs log) {new : List Handler} (hn : ∀ x ∈ new, x.pc = .start) :
    ProvInv (hs ++ new) cs log := by
  refine ⟨hi.calls, fun j x resp key op hx hr hf => ?_, fun p j resp h => ?_⟩
  · rcases getElem?_append_cases hx with hx | hx
    · exact hi.handlers j x resp key op hx hr hf
    · rw [hn x hx] at hr; cases hr
  · obtain ⟨x, hx, hs⟩ := hi.wrote p j resp h
    exact ⟨x, (List.getElem?_append_left (List.getElem?_eq_some_iff.1 hx).1).trans hx, hs⟩

/-- Goroutine `i` moves to `pc'`, where a response it holds answers its request from a backend
return. -/
theorem setHandler (hi : ProvInv hs cs log) {i : Nat} {req : Request} {pc pc' : HandlerPc}
    (hh : hs[i]? = some ⟨req, pc⟩)
    (hserved : ∀ resp key op, pc'.response? = some resp → flightOf req = some (key, op) →
      Served log log.length req key resp) :
    ProvInv (hs.set i ⟨req, pc'⟩) cs log := by
  refine ⟨hi.calls, fun j x resp key op hx hr hf => ?_, fun p j resp h => ?_⟩
  · rcases getElem?_set_cases hh hx with ⟨-, rfl⟩ | ⟨-, hx⟩
    · exact hserved resp key op hr hf
    · exact hi.handlers j x resp key op hx hr hf
  · obtain ⟨x, hx, hs⟩ := hi.wrote p j resp h
    rw [getElem?_set_of hh]
    split
    · subst j
      rw [hh] at hx
      cases hx
      exact ⟨_, rfl, hs⟩
    · exact ⟨x, hx, hs⟩

/-- Goroutine `i` moves to a place where it holds no response. -/
theorem leave (hi : ProvInv hs cs log) {i : Nat} {req : Request} {pc pc' : HandlerPc}
    (hh : hs[i]? = some ⟨req, pc⟩) (hpc : pc'.response? = none) :
    ProvInv (hs.set i ⟨req, pc'⟩) cs log :=
  hi.setHandler hh fun _ _ _ h => by rw [hpc] at h; cases h

/-- A call changes to `call'`, whose result was returned by a backend call of its key. -/
theorem setCall (hi : ProvInv hs cs log) {c : Nat} {call call' : Call} (hc : cs[c]? = some call)
    (hres : ∀ r, call'.result = some r →
      ∃ (q : Nat) (who : Option Nat) (op : Op), log[q]? = some (.ret who op r) ∧ op.key = call'.key) :
    ProvInv hs (cs.set c call') log := by
  refine ⟨fun c' y r hy hr => ?_, hi.handlers, hi.wrote⟩
  rcases getElem?_set_cases hc hy with ⟨-, rfl⟩ | ⟨-, hy⟩
  · exact hres r hr
  · exact hi.calls c' y r hy hr

/-- `Do` adds a call with no result. -/
theorem addCall (hi : ProvInv hs cs log) (key : Bytes) (i : Nat) :
    ProvInv hs (cs ++ [⟨key, i, none, none, false⟩]) log := by
  refine ⟨fun c call r hc hr => ?_, hi.handlers, hi.wrote⟩
  rcases getElem?_concat_cases hc with hc | ⟨-, rfl⟩
  · exact hi.calls c call r hc hr
  · cases hr

/-- Goroutine `i` writes the response it holds. -/
theorem write (hi : ProvInv hs cs log) {i : Nat} {x : Handler} {resp : Response}
    (hh : hs[i]? = some x) (hr : x.pc.response? = some resp) :
    ProvInv hs cs (log ++ [.wrote (some i) resp]) := by
  refine hi.extend_of fun p j resp' hp h => ?_
  have hlt := (List.getElem?_eq_some_iff.1 h).1
  rw [List.length_append, List.length_singleton] at hlt
  obtain rfl : p = log.length := by omega
  rw [List.getElem?_concat_length, Option.some.injEq, Event.wrote.injEq, Option.some.injEq] at h
  obtain ⟨rfl, rfl⟩ := h
  exact ⟨x, hh, fun key op hf => (hi.handlers _ x _ key op hh hr hf).append le_rfl _⟩

/-- A goroutine whose `Do` returned the result `r` of call `c` answers its request from a return
of its key. -/
theorem served_of_call {hs : List Handler} {cs : List Call} {log : List Event}
    (hf : FlightInv hs cs) (hi : ProvInv hs cs log) {i c : Nat} {x : Handler} {call : Call}
    {r : Except Bytes Payload} (hx : hs[i]? = some x) (hc : x.pc.call? = some c)
    (hcall : cs[c]? = some call) (hr : call.result = some r) (key : Bytes) (op : Op)
    (hfl : flightOf x.req = some (key, op)) : Served log log.length x.req key (respond x.req.id r) := by
  obtain ⟨q, who, op', h1, h2⟩ := hi.calls c call r hcall hr
  obtain ⟨call', hc', op'', hf'⟩ := hf.key i x c hx hc
  rw [hcall, Option.some.injEq] at hc'
  subst hc'
  rw [hfl, Option.some.injEq, Prod.mk.injEq] at hf'
  exact ⟨q, (List.getElem?_eq_some_iff.1 h1).1, who, op', r, h1, hf'.1 ▸ h2, rfl⟩

end ProvInv

section Runs

variable {B : Backend σ} {faults : Bool} {input : Bytes} {s : σ} {w w' : World σ}

/-- `Run` writes no goroutine's response. -/
theorem RunStep.no_handler_write (h : RunStep B faults w w') :
    ∃ es, w'.log = w.log ++ es ∧ es.any Event.isHandlerWrite = false := by
  cases h <;> first
    | exact ⟨[], (List.append_nil _).symm, rfl⟩
    | exact ⟨[_], rfl, rfl⟩

theorem provInv_step (hf : FlightInv w.handlers w.calls) (hi : ProvInv w.handlers w.calls w.log)
    (h : Step B faults w w') : ProvInv w'.handlers w'.calls w'.log := by
  rcases h with h | ⟨i, h⟩
  · obtain ⟨new, hn, hs⟩ := h.handlers_eq
    obtain ⟨es, hl, hes⟩ := h.no_handler_write
    rw [hn, h.calls_eq, hl]
    exact (hi.append hs).extend hes
  · cases h with
    | lead _ key _ hh _ _ => exact ((hi.leave hh (by rfl)).addCall key i).extend (by rfl)
    | join _ _ _ _ hh _ _ => exact hi.leave hh (by rfl)
    | unknown _ hh hfl => exact hi.setHandler hh fun _ _ _ _ h => by rw [hfl] at h; cases h
    | exec req c call key op hh hfl hcall => exact hi.setCall hcall fun r hr => hi.calls c call r hcall hr
    | ret req c call key op r hh hfl hcall =>
      obtain ⟨call', hc', op', hf'⟩ := hf.key i _ c hh rfl
      rw [hcall, Option.some.injEq] at hc'
      subst hc'
      rw [hfl, Option.some.injEq, Prod.mk.injEq] at hf'
      refine ((hi.leave hh (by rfl)).extend (by rfl)).setCall hcall fun r' hr => ?_
      cases hr
      exact ⟨w.log.length, some i, op, List.getElem?_concat_length _ _,
        (flightOf_key hfl).symm.trans hf'.1⟩
    | finish _ _ call _ hh hcall hr =>
      refine (hi.setHandler hh fun _ key op h1 h2 => ?_).setCall hcall fun r' hr' =>
        hi.calls _ call r' hcall hr'
      cases h1
      exact hi.served_of_call hf hh rfl hcall hr key op h2
    | wake _ _ _ _ hh hcall _ hr =>
      refine hi.setHandler hh fun _ key op h1 h2 => ?_
      cases h1
      exact hi.served_of_call hf hh rfl hcall hr key op h2
    | marshal _ _ _ hh _ | lock _ _ _ hh _ | write _ _ _ hh | writeByte _ _ _ hh =>
      exact hi.setHandler hh fun resp key op h1 h2 => hi.handlers i _ resp key op hh h1 h2
    | marshalFail _ _ _ hh _ | writeFail _ _ _ _ hh _ _ => exact (hi.leave hh (by rfl)).extend (by rfl)
    | flush _ _ _ hh => exact (hi.write hh rfl).leave hh (by rfl)
    | report _ _ hh => exact hi.leave hh (by rfl)

theorem provInv_of_reachable (h : Reachable B faults input s w) :
    ProvInv w.handlers w.calls w.log := by
  induction h with
  | refl =>
    exact ⟨fun _ _ _ h => by simp [World.init] at h, fun _ _ _ _ _ h => by simp [World.init] at h,
      fun _ _ _ h => by simp [World.init] at h⟩
  | tail hr hs ih => exact provInv_step (flightInv_of_reachable hr) ih hs

/-- No response is made up: over every run, with any backend, schedule and write failures, the
response a goroutine writes for a put or a get is `respond` of its request's id and of what a backend
call of the request's key, the same method and action id, returned before the write. -/
theorem response_from_backend (h : Reachable B faults input s w) {p j : Nat} {resp : Response}
    (hp : w.log[p]? = some (.wrote (some j) resp)) :
    ∃ x : Handler, w.handlers[j]? = some x ∧ ∀ key op, flightOf x.req = some (key, op) →
      ∃ q < p, ∃ (who : Option Nat) (op' : Op) (r : Except Bytes Payload),
        w.log[q]? = some (.ret who op' r) ∧ op'.key = key ∧ resp = respond x.req.id r :=
  (provInv_of_reachable h).wrote p j resp hp

end Runs

/-- One get, answered a miss by the empty map: the response is built from the return of `Get`. -/
theorem response_from_backend_get : ∃ w : World (Bytes → Option (Bytes × Int64)),
    Reachable mapBackend false (encodeFrames [getFrame (Int64.ofInt 1) [1]]) (fun _ => none) w ∧
      w.log[4]? = some (.wrote (some 0) { Response.zero with id := Int64.ofInt 1, miss := true }) ∧
      ∃ x : Handler, w.handlers[0]? = some x ∧ ∀ key op, flightOf x.req = some (key, op) →
        ∃ q < 4, ∃ (who : Option Nat) (op' : Op) (r : Except Bytes Payload),
          w.log[q]? = some (.ret who op' r) ∧ op'.key = key ∧
            { Response.zero with id := Int64.ofInt 1, miss := true } = respond x.req.id r := by
  have hr : Reachable mapBackend false (encodeFrames [getFrame (Int64.ofInt 1) [1]]) (fun _ => none)
      _ :=
    .head (.run (.handshake _ _ rfl rfl encodeResponse_initialResponse)) <|
    .head (.run (.spawn _ _ _ rfl (readRequest_encode _ (by decide) []) (by decide))) <|
    .head (.run (.checkNone _ rfl rfl)) <|
    .head (.handler 0 (.lead _ _ _ _ rfl rfl rfl)) <|
    .head (.handler 0 (.exec _ _ 0 _ _ _ rfl rfl rfl rfl)) <|
    .head (.handler 0 (.ret _ _ 0 _ _ _ _ rfl rfl rfl rfl)) <|
    .head (.handler 0 (.finish _ _ 0 _ _ rfl rfl rfl)) <|
    .head (.handler 0 (.marshal _ _ _ _ rfl rfl)) <|
    .head (.handler 0 (.lock _ _ _ _ rfl rfl)) <|
    .head (.handler 0 (.write _ _ _ _ rfl)) <|
    .head (.handler 0 (.writeByte _ _ _ _ rfl)) <|
    .head (.handler 0 (.flush _ _ _ _ rfl)) .refl
  exact ⟨_, hr, rfl, response_from_backend hr (p := 4) rfl⟩

/-! ## Read-your-writes -/

/-- A backend whose `Put` and `Get` act on one map `view` from action id to output id and size, each
as it takes effect: a `Put` sets the entry of its action id, and a `Get` changes nothing and answers
a hit with the entry's output id and size. -/
structure AtomicMap (B : Backend σ) (view : σ → Bytes → Option (Bytes × Int64)) : Prop where
  put_view : ∀ s a o body n b,
    view (B.put s a o body n).2 b = if b = a then some (o, n) else view s b
  get_view : ∀ s a, view (B.get s a).2 = view s
  get_hit : ∀ s a o n, view s a = some (o, n) →
    ∃ g : GetResult, (B.get s a).1 = .ok g ∧ g.miss = false ∧ g.outputID = o ∧ g.size = n

/-- A call of `Put` of the action id `a`. -/
def Event.isPutCall (a : Bytes) : Event → Bool
  | .call _ (.put a' _ _ _) => a' == a
  | _ => false

/-- The request a get passes to `Do`. -/
theorem flightOf_get {req : Request} (h : req.command = cmdGet) :
    flightOf req = some (getKey req.actionID, .get req.actionID) := by
  rw [flightOf, if_neg (by rw [h]; decide), if_pos h]

/-- The only backend call of the key `get:<hex a>` is `Get(a)`. -/
theorem Op.eq_get_of_key {op : Op} {a : Bytes} (h : op.key = getKey a) : op = .get a := by
  cases op with
  | put a' => exact absurd h (putKey_ne_getKey a' a)
  | get a' => rw [getKey_injective h]
  | close => exact absurd (List.append_eq_nil.1 h.symm).1 (by decide)

/-- The only backend calls of the key `put:<hex a>` are `Put`s of `a`. -/
theorem Op.eq_put_of_key {op : Op} {a : Bytes} (h : op.key = putKey a) :
    ∃ o body n, op = .put a o body n := by
  cases op with
  | put a' o body n => exact ⟨o, body, n, by rw [putKey_injective h]⟩
  | get a' => exact absurd h.symm (putKey_ne_getKey a a')
  | close => exact absurd (List.append_eq_nil.1 h.symm).1 (by decide)

section AtomicMap

variable {B : Backend σ} {view : σ → Bytes → Option (Bytes × Int64)}

/-- Effects of anything but a `Put` of `a` or a `Close` leave the entry of `a`. -/
theorem AtomicMap.view_replay (hB : AtomicMap B view) {a : Bytes} {l : List Effect}
    (hl : ∀ e ∈ l, e.op.key ≠ putKey a ∧ e.op ≠ .close) (s : σ) :
    view (replay B s l) a = view s a := by
  induction l generalizing s with
  | nil => rfl
  | cons e l ih =>
    obtain ⟨hp, hc⟩ := hl e (List.mem_cons_self _ _)
    refine (ih (fun e he => hl e (List.mem_cons_of_mem _ he)) _).trans ?_
    rcases e with ⟨who, _ | a' | _, r⟩ <;> dsimp only
    · rw [Backend.call, hB.put_view, if_neg]
      rintro rfl
      exact hp rfl
    · rw [Backend.call, hB.get_view]
    · exact absurd rfl hc

/-- After `Put(a, o, body, n)` takes effect, the entry of `a` is `(o, n)`. -/
theorem AtomicMap.view_put (hB : AtomicMap B view) (s : σ) {a o : Bytes} {body : Option Bytes}
    {n : Int64} : view (B.call s (.put a o body n)).2 a = some (o, n) := by
  rw [Backend.call, hB.put_view, if_pos rfl]

end AtomicMap

/-! ## Runs with the map backend -/

/-- A get of the action id `[1]`, a put of it, and another get of it. -/
def putBetweenGets : Bytes :=
  encodeFrames [getFrame (Int64.ofInt 1) [1], putFrame (Int64.ofInt 2) [1] [2] (Int64.ofInt 1) [7],
    getFrame (Int64.ofInt 3) [1]]

/-- `mapBackend` is an atomic map, its state the map itself. -/
theorem atomicMap_mapBackend : AtomicMap mapBackend id where
  put_view _ _ _ _ _ _ := rfl
  get_view _ _ := rfl
  get_hit s a o n h := ⟨⟨o, Hex.encodeToString a, n, none, false⟩,
    by rw [mapBackend]; dsimp only; rw [show s a = some (o, n) from h], rfl, rfl, rfl⟩

section ReadYourWrites

variable {B : Backend σ} {view : σ → Bytes → Option (Bytes × Int64)} {faults : Bool}
  {input : Bytes} {s : σ} {w : World σ} {lin : List (Effect × Nat)}

/-- No effect up to that of a goroutine's call that has returned is of `Close`: `Run` calls it
once every goroutine has returned. -/
theorem LinInv.ne_close (hi : LinInv B s w lin) (hc : CloseInv w) {k kg q i : Nat}
    {x g : Effect × Nat} (hk : lin[k]? = some x) (hkg : lin[kg]? = some g) (hle : k ≤ kg)
    (hg : g.1.who = some i) (hq : w.log[q]? = some (.ret g.1.who g.1.op g.1.answer)) :
    x.1.op ≠ .close := by
  intro hx
  obtain ⟨qe, hqe, he⟩ := hi.called x (List.getElem?_mem hk)
  rw [hi.closeByRun x (List.getElem?_mem hk) hx, hx] at he
  have h1 := le_of_pairwise hi.sorted hk hkg hle
  have h2 := hi.le_of_ret hkg hq
  have := hc.after qe q _ (by omega) he hq
  simp [Event.who, hg] at this

/-- Between the effect of a `Put(a)` that returned at `q'` and the effect of a goroutine's call
that returned at `q`, every effect is of another key than that `Put`'s, and not of `Close`, unless a
`Put(a)` was called between `q'` and `q`. -/
theorem LinInv.between_put (hi : LinInv B s w lin) (hc : CloseInv w) {kp kg q q' i : Nat}
    {pu g : Effect × Nat} {a o : Bytes} {body : Option Bytes} {n : Int64} (hkp : lin[kp]? = some pu)
    (hkg : lin[kg]? = some g) (hpu : pu.1.op = .put a o body n)
    (hq' : w.log[q']? = some (.ret pu.1.who pu.1.op pu.1.answer)) (hg : g.1.who = some i)
    (hq : w.log[q]? = some (.ret g.1.who g.1.op g.1.answer))
    (hmid : ∀ k e, q' < k → k < q → w.log[k]? = some e → e.isPutCall a = false) :
    ∀ e ∈ ((lin.map Prod.fst).take kg).drop (kp + 1), e.op.key ≠ putKey a ∧ e.op ≠ .close := by
  intro e he
  obtain ⟨k, hk1, hk2, hk⟩ := mem_drop_take he
  rw [List.getElem?_map] at hk
  obtain ⟨y, hy, rfl⟩ := Option.map_eq_some'.1 hk
  refine ⟨fun hkey => ?_, hi.ne_close hc hy hkg hk2.le hg hq⟩
  obtain ⟨o', body', n', hput⟩ := Op.eq_put_of_key hkey
  obtain ⟨-, hser⟩ := hi.keySerial kp k pu y hk1 hkp hy (by rw [hkey, hpu]; rfl) (by rw [hpu]; nofun)
  obtain ⟨qe, hqe, hcall⟩ := hi.called y (List.getElem?_mem hy)
  have h1 := hser q' qe _ hq' hcall
  have h2 := le_of_pairwise hi.sorted hy hkg hk2.le
  have h3 := hi.le_of_ret hkg hq
  have := hmid qe _ h1 (by omega) hcall
  simp [hput, Event.isPutCall] at this

/-- Read-your-writes at the backend: the response written for a get carries the result of a
goroutine's backend `Get` of its action id, called and returned before the write, and reads the
last `Put` of the action id that returned before that `Get` was called, where no other `Put` of
it was called between that return and the return of the `Get`. -/
theorem get_reflects_backend (hB : AtomicMap B view) (hr : Reachable B faults input s w)
    {p j : Nat} {resp : Response} (hw : w.log[p]? = some (.wrote (some j) resp))
    {x : Handler} (hx : w.handlers[j]? = some x) (hget : x.req.command = cmdGet) :
    ∃ qc q, qc < q ∧ q < p ∧ ∃ (i : Nat) (r : Except Bytes Payload),
      w.log[qc]? = some (.call (some i) (.get x.req.actionID)) ∧
      w.log[q]? = some (.ret (some i) (.get x.req.actionID) r) ∧ resp = respond x.req.id r ∧
      ∀ q' < qc, ∀ (who : Option Nat) (o : Bytes) (body : Option Bytes) (n : Int64)
        (r' : Except Bytes Payload),
        w.log[q']? = some (.ret who (.put x.req.actionID o body n) r') →
        (∀ k e, q' < k → k < q → w.log[k]? = some e → e.isPutCall x.req.actionID = false) →
        resp.miss = false ∧ resp.outputID = o ∧ resp.size = n := by
  have hc := closeInv_of_reachable hr
  obtain ⟨lin, hi⟩ := linInv_of_reachable hr
  obtain ⟨x', hx', hs⟩ := (provInv_of_reachable hr).wrote p j resp hw
  rw [hx, Option.some.injEq] at hx'
  subst hx'
  obtain ⟨q, hq, who, op, r, h1, hkey, hresp⟩ := hs _ _ (flightOf_get hget)
  obtain rfl := Op.eq_get_of_key hkey
  obtain ⟨i, rfl⟩ : ∃ i, who = some i := by
    cases who with
    | none => exact absurd (hc.runRet q _ r h1).1 nofun
    | some i => exact ⟨i, rfl⟩
  -- the effect of the `Get` and its call
  obtain ⟨g, hg, hge, -⟩ := hi.returned q _ _ _ h1
  obtain ⟨kg, hkg⟩ := List.mem_iff_getElem?.1 hg
  obtain ⟨qc, hqc, hcall⟩ := hi.called g hg
  have hgq : w.log[q]? = some (.ret g.1.who g.1.op g.1.answer) := by rw [hge]; exact h1
  have hqcq := hi.le_of_ret hkg hgq
  refine ⟨qc, q, by omega, hq, i, r, by rw [hcall, hge], h1, hresp,
    fun q' hq' who' o body n r' h2 hmid => ?_⟩
  -- the effect of the `Put`, which comes before
  obtain ⟨pu, hpu, hpue, -⟩ := hi.returned q' _ _ _ h2
  obtain ⟨kp, hkp⟩ := List.mem_iff_getElem?.1 hpu
  have hpq : w.log[q']? = some (.ret pu.1.who pu.1.op pu.1.answer) := by rw [hpue]; exact h2
  have hlt := hi.lt_of_ret_call hkp hkg hpq hcall hq'
  have hview : view (replay B s ((lin.map Prod.fst).take kg)) x.req.actionID = some (o, n) := by
    rw [take_split hlt (by rw [List.getElem?_map, hkp]; rfl), replay_append, replay, List.foldl_cons,
      ← replay, hB.view_replay (hi.between_put hc hkp hkg (by rw [hpue]) hpq (by rw [hge]) hgq hmid),
      hpue]
    exact hB.view_put _
  obtain ⟨gr, hgr, hmiss, ho, hn⟩ := hB.get_hit _ _ _ _ hview
  have hans := hi.serial.answer_eq (show (lin.map Prod.fst)[kg]? = some g.1 by
    rw [List.getElem?_map, hkg]; rfl)
  rw [hge] at hans
  dsimp only at hans
  rw [hresp, hans, Backend.call, hgr]
  simp only [Except.map, respond, hmiss]
  exact ⟨rfl, ho, hn⟩

/-- With the map backend, the get of `putThenGet` reads the put before it. -/
theorem get_reflects_backend_putThenGet : ∃ (w : World (Bytes → Option (Bytes × Int64))) (p : Nat)
    (resp : Response) (x : Handler), Reachable mapBackend false putThenGet (fun _ => none) w ∧
      w.log[p]? = some (.wrote (some 1) resp) ∧ w.handlers[1]? = some x ∧ x.req.command = cmdGet ∧
      ∃ qc q, qc < q ∧ q < p ∧ ∃ (i : Nat) (r : Except Bytes Payload),
        w.log[qc]? = some (.call (some i) (.get x.req.actionID)) ∧
        w.log[q]? = some (.ret (some i) (.get x.req.actionID) r) ∧ resp = respond x.req.id r ∧
        ∀ q' < qc, ∀ (who : Option Nat) (o : Bytes) (body : Option Bytes) (n : Int64)
          (r' : Except Bytes Payload),
          w.log[q']? = some (.ret who (.put x.req.actionID o body n) r') →
          (∀ k e, q' < k → k < q → w.log[k]? = some e → e.isPutCall x.req.actionID = false) →
          resp.miss = false ∧ resp.outputID = o ∧ resp.size = n := by
  obtain ⟨w, hr, hw, hx⟩ : ∃ w : World (Bytes → Option (Bytes × Int64)),
      Reachable mapBackend false putThenGet (fun _ => none) w ∧
        w.log[8]? = some (.wrote (some 1)
          { Response.zero with
            id := Int64.ofInt 2, outputID := [2], diskPath := Hex.encodeToString [1],
            size := Int64.ofInt 1 }) ∧
        w.handlers[1]? = some ⟨(getFrame (Int64.ofInt 2) [1]).request, .finished⟩ :=
    ⟨_, .head (.run (.handshake _ _ rfl rfl encodeResponse_initialResponse)) <|
      .head (.run (.spawn _ _ _ rfl (readRequest_encode _ (by decide) _) (by decide))) <|
      .head (.run (.checkNone _ rfl rfl)) <|
      .head (.handler 0 (.lead _ _ _ _ rfl rfl rfl)) <|
      .head (.handler 0 (.exec _ _ 0 _ _ _ rfl rfl rfl rfl)) <|
      .head (.handler 0 (.ret _ _ 0 _ _ _ _ rfl rfl rfl rfl)) <|
      .head (.handler 0 (.finish _ _ 0 _ _ rfl rfl rfl)) <|
      .head (.handler 0 (.marshal _ _ _ _ rfl rfl)) <|
      .head (.handler 0 (.lock _ _ _ _ rfl rfl)) <|
      .head (.handler 0 (.write _ _ _ _ rfl)) <|
      .head (.handler 0 (.writeByte _ _ _ _ rfl)) <|
      .head (.handler 0 (.flush _ _ _ _ rfl)) <|
      .head (.run (.spawn _ _ _ rfl (readRequest_encode _ (by decide) []) (by decide))) <|
      .head (.run (.checkNone _ rfl rfl)) <|
      .head (.handler 1 (.lead _ _ _ _ rfl rfl rfl)) <|
      .head (.handler 1 (.exec _ _ 1 _ _ _ rfl rfl rfl rfl)) <|
      .head (.handler 1 (.ret _ _ 1 _ _ _ _ rfl rfl rfl rfl)) <|
      .head (.handler 1 (.finish _ _ 1 _ _ rfl rfl rfl)) <|
      .head (.handler 1 (.marshal _ _ _ _ rfl rfl)) <|
      .head (.handler 1 (.lock _ _ _ _ rfl rfl)) <|
      .head (.handler 1 (.write _ _ _ _ rfl)) <|
      .head (.handler 1 (.writeByte _ _ _ _ rfl)) <|
      .head (.handler 1 (.flush _ _ _ _ rfl)) .refl, rfl, rfl⟩
  exact ⟨w, 8, _, _, hr, hw, hx, rfl, get_reflects_backend atomicMap_mapBackend hr hw hx rfl⟩

/-- A get read after the response to a put of its action id was written, with no other put of it
read in between, answers a miss: it joins the call of the first get, whose `Get` returned before the
`Put` was called and which is still in the group's map. -/
theorem get_after_put_misses : ∃ w : World (Bytes → Option (Bytes × Int64)),
    Reachable mapBackend false putBetweenGets (fun _ => none) w ∧
      w.log = [.wrote none initialResponse,
        .read (some 0) (getFrame (Int64.ofInt 1) [1]).request, .call (some 0) (.get [1]),
        .ret (some 0) (.get [1]) (.ok (.get ⟨[], [], Int64.zero, none, true⟩)),
        .read (some 1) (putFrame (Int64.ofInt 2) [1] [2] (Int64.ofInt 1) [7]).request,
        .call (some 1) (.put [1] [2] (some [7]) (Int64.ofInt 1)),
        .ret (some 1) (.put [1] [2] (some [7]) (Int64.ofInt 1)) (.ok (.put (Hex.encodeToString [1]))),
        .wrote (some 1) { Response.zero with id := Int64.ofInt 2, diskPath := Hex.encodeToString [1] },
        .read (some 2) (getFrame (Int64.ofInt 3) [1]).request,
        .wrote (some 2) { Response.zero with id := Int64.ofInt 3, miss := true }] :=
  ⟨_, .head (.run (.handshake _ _ rfl rfl encodeResponse_initialResponse)) <|
    .head (.run (.spawn _ _ _ rfl (readRequest_encode _ (by decide) _) (by decide))) <|
    .head (.run (.checkNone _ rfl rfl)) <|
    .head (.handler 0 (.lead _ _ _ _ rfl rfl rfl)) <|
    .head (.handler 0 (.exec _ _ 0 _ _ _ rfl rfl rfl rfl)) <|
    .head (.handler 0 (.ret _ _ 0 _ _ _ _ rfl rfl rfl rfl)) <|
    .head (.run (.spawn _ _ _ rfl (readRequest_encode _ (by decide) _) (by decide))) <|
    .head (.run (.checkNone _ rfl rfl)) <|
    .head (.handler 1 (.lead _ _ _ _ rfl rfl rfl)) <|
    .head (.handler 1 (.exec _ _ 1 _ _ _ rfl rfl rfl rfl)) <|
    .head (.handler 1 (.ret _ _ 1 _ _ _ _ rfl rfl rfl rfl)) <|
    .head (.handler 1 (.finish _ _ 1 _ _ rfl rfl rfl)) <|
    .head (.handler 1 (.marshal _ _ _ _ rfl rfl)) <|
    .head (.handler 1 (.lock _ _ _ _ rfl rfl)) <|
    .head (.handler 1 (.write _ _ _ _ rfl)) <|
    .head (.handler 1 (.writeByte _ _ _ _ rfl)) <|
    .head (.handler 1 (.flush _ _ _ _ rfl)) <|
    .head (.run (.spawn _ _ _ rfl (readRequest_encode _ (by decide) []) (by decide))) <|
    .head (.run (.checkNone _ rfl rfl)) <|
    .head (.handler 2 (.join _ _ _ _ 0 rfl rfl rfl)) <|
    .head (.handler 0 (.finish _ _ 0 _ _ rfl rfl rfl)) <|
    .head (.handler 2 (.wake _ _ 0 _ _ rfl rfl rfl rfl)) <|
    .head (.handler 2 (.marshal _ _ _ _ rfl rfl)) <|
    .head (.handler 2 (.lock _ _ _ _ rfl rfl)) <|
    .head (.handler 2 (.write _ _ _ _ rfl)) <|
    .head (.handler 2 (.writeByte _ _ _ _ rfl)) <|
    .head (.handler 2 (.flush _ _ _ _ rfl)) .refl, rfl⟩

end ReadYourWrites

end GoBuildCache.Broker
