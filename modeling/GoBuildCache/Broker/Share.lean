import GoBuildCache.Broker.Provenance

/-!
# Gets that share one backend call

`sfGroup.Do` lets a goroutine that finds a call of its key in the group's map wait for that call
instead of making one of its own.  This module proves what such a goroutine answers, and that the
sharing lasts only while the call is in the map.

* `FromLeader`: a result came back from the backend call of some goroutine, which is the goroutine
  asking whenever that one has made a backend call of its own.
* `ShareInv`: every result stored in a call came back from its leader's backend call; a goroutine
  waiting for a call has made no backend call; every response a goroutine holds or has written
  answers its request with a result `FromLeader`; and every backend return of a goroutine is of
  its request's call.  `shareInv_of_reachable` carries it along every run.
* `joined_get_shares_result`: over every run and schedule, a get answered without a backend call
  of its goroutine's own carries the result of the backend `Get` of another goroutine, and that
  goroutine's own response carries the same result.
* `get_not_deduplicated`: a goroutine that reaches `Do` after the call for its key is cleaned up
  makes a call of its own, even when both requests were read before either response was written:
  two gets of one action id then call `backend.Get` twice.
-/

namespace GoBuildCache.Broker

open Protocol

variable {σ : Type}

/-! ## Where a result came from -/

/-- The log holds no backend call of goroutine `j`. -/
def NoCallOf (log : List Event) (j : Nat) : Prop :=
  ∀ (q : Nat) (op : Op), log[q]? ≠ some (.call (some j) op)

/-- The result `r` came back before position `p` from a backend call of the key `key` of some
goroutine `k`, which is `j` itself once `j` has made a backend call. -/
def FromLeader (log : List Event) (p j : Nat) (key : Bytes) (r : Except Bytes Payload) : Prop :=
  ∃ k, ∃ q < p, ∃ op : Op, log[q]? = some (.ret (some k) op r) ∧ op.key = key ∧
    ∀ (q' : Nat) (op' : Op), log[q']? = some (.call (some j) op') → k = j

theorem NoCallOf.append {log es : List Event} {j : Nat} (h : NoCallOf log j)
    (hes : ∀ op, Event.call (some j) op ∉ es) : NoCallOf (log ++ es) j := fun q op hq =>
  (getElem?_append_cases hq).elim (h q op) (hes op)

theorem FromLeader.append {log es : List Event} {p j : Nat} {key : Bytes} {r : Except Bytes Payload}
    (h : FromLeader log p j key r) (hes : ∀ op, Event.call (some j) op ∉ es) {p' : Nat}
    (hp : p ≤ p') : FromLeader (log ++ es) p' j key r := by
  obtain ⟨k, q, hq, op, h1, h2, h3⟩ := h
  refine ⟨k, q, by omega, op, getElem?_append_of_some es h1, h2, fun q' op' h' => ?_⟩
  rcases getElem?_append_cases h' with h' | h'
  exacts [h3 q' op' h', absurd h' (hes op')]

/-! ## The invariant -/

/-- What the broker keeps of who answered each result. -/
structure ShareInv (hs : List Handler) (cs : List Call) (log : List Event) : Prop where
  /-- A result stored in a call came back from its leader's backend call of its key. -/
  calls : ∀ (c : Nat) (call : Call) (r : Except Bytes Payload), cs[c]? = some call →
    call.result = some r → ∃ q < log.length, ∃ op : Op,
      log[q]? = some (.ret (some call.leader) op r) ∧ op.key = call.key
  /-- A goroutine waiting for a call has made no backend call. -/
  waiting : ∀ (j : Nat) (req : Request) (c : Nat), hs[j]? = some ⟨req, .waiting c⟩ → NoCallOf log j
  /-- A response a goroutine holds answers its request from a backend call of its key. -/
  held : ∀ (j : Nat) (x : Handler) (resp : Response) (key : Bytes) (op : Op), hs[j]? = some x →
    x.pc.response? = some resp → flightOf x.req = some (key, op) →
    ∃ r, resp = respond x.req.id r ∧ FromLeader log log.length j key r
  /-- A goroutine that wrote a response has returned, and the response answers its request from a
  backend call of its key that returned before the write. -/
  wrote : ∀ (p j : Nat) (resp : Response), log[p]? = some (.wrote (some j) resp) →
    ∃ x : Handler, hs[j]? = some x ∧ x.pc = .finished ∧
      ∀ key op, flightOf x.req = some (key, op) → ∃ r, resp = respond x.req.id r ∧ FromLeader log p j key r
  /-- A backend return of a goroutine is of the call of its request. -/
  rets : ∀ (q i : Nat) (op : Op) (r : Except Bytes Payload), log[q]? = some (.ret (some i) op r) →
    ∃ x : Handler, hs[i]? = some x ∧ flightOf x.req = some (op.key, op)

namespace ShareInv

variable {hs : List Handler} {cs : List Call} {log : List Event}

/-- Events appended to the log: a backend call only of goroutines that neither wait nor hold a
response nor have returned, and returns and writes that keep the invariant. -/
theorem extend (hi : ShareInv hs cs log) {es : List Event}
    (hcall : ∀ j op, Event.call (some j) op ∈ es → ∀ x : Handler, hs[j]? = some x →
      x.pc.response? = none ∧ x.pc ≠ .finished ∧ ∀ c, x.pc ≠ .waiting c)
    (hwr : ∀ p j resp, log.length ≤ p → (log ++ es)[p]? = some (.wrote (some j) resp) →
      ∃ x : Handler, hs[j]? = some x ∧ x.pc = .finished ∧
        ∀ key op, flightOf x.req = some (key, op) →
          ∃ r, resp = respond x.req.id r ∧ FromLeader (log ++ es) p j key r)
    (hret : ∀ q i op r, log.length ≤ q → (log ++ es)[q]? = some (.ret (some i) op r) →
      ∃ x : Handler, hs[i]? = some x ∧ flightOf x.req = some (op.key, op)) :
    ShareInv hs cs (log ++ es) := by
  refine ⟨fun c call r hc hr => ?_, fun j req c hj => ?_, fun j x resp key op hx hr hf => ?_,
    fun p j resp h => ?_, fun q i op r h => ?_⟩
  · obtain ⟨q, hq, op, h1, h2⟩ := hi.calls c call r hc hr
    exact ⟨q, by simp only [List.length_append]; omega, op, getElem?_append_of_some es h1, h2⟩
  · exact (hi.waiting j req c hj).append fun op hm => (hcall j op hm _ hj).2.2 c rfl
  · obtain ⟨r, hresp, hsrc⟩ := hi.held j x resp key op hx hr hf
    refine ⟨r, hresp, hsrc.append (fun op hm => ?_) (by simp)⟩
    rw [(hcall j op hm x hx).1] at hr
    cases hr
  · rcases Nat.lt_or_ge p log.length with hp | hp
    · obtain ⟨x, hx, hfin, hsrc⟩ := hi.wrote p j resp ((List.getElem?_append_left hp).symm.trans h)
      refine ⟨x, hx, hfin, fun key op hf => ?_⟩
      obtain ⟨r, hresp, hs⟩ := hsrc key op hf
      exact ⟨r, hresp, hs.append (fun op hm => (hcall j op hm x hx).2.1 hfin) le_rfl⟩
    · exact hwr p j resp hp h
  · rcases Nat.lt_or_ge q log.length with hq | hq
    · exact hi.rets q i op r ((List.getElem?_append_left hq).symm.trans h)
    · exact hret q i op r hq h

/-- New goroutines start outside `Do`. -/
theorem append (hi : ShareInv hs cs log) {new : List Handler} (hn : ∀ x ∈ new, x.pc = .start) :
    ShareInv (hs ++ new) cs log := by
  have old : ∀ {j x}, hs[j]? = some x → (hs ++ new)[j]? = some x := getElem?_append_of_some new
  refine ⟨hi.calls, fun j req c hj => ?_, fun j x resp key op hx hr hf => ?_,
    fun p j resp h => ?_, fun q i op r h => ?_⟩
  · rcases getElem?_append_cases hj with hj | hj
    exacts [hi.waiting j req c hj, absurd (hn _ hj) nofun]
  · rcases getElem?_append_cases hx with hx | hx
    · exact hi.held j x resp key op hx hr hf
    · rw [hn x hx] at hr; cases hr
  · obtain ⟨x, hx, hfin, hsrc⟩ := hi.wrote p j resp h
    exact ⟨x, old hx, hfin, hsrc⟩
  · obtain ⟨x, hx, hf⟩ := hi.rets q i op r h
    exact ⟨x, old hx, hf⟩

/-- Goroutine `i` moves from `pc` to `pc'`: once waiting it has made no backend call, and a
response it holds there answers its request from a backend call of its key. -/
theorem setHandler (hi : ShareInv hs cs log) {i : Nat} {req : Request} {pc pc' : HandlerPc}
    (hh : hs[i]? = some ⟨req, pc⟩) (hpc : pc ≠ .finished)
    (hwait : ∀ c, pc' = .waiting c → NoCallOf log i)
    (hheld : ∀ resp key op, pc'.response? = some resp → flightOf req = some (key, op) →
      ∃ r, resp = respond req.id r ∧ FromLeader log log.length i key r) :
    ShareInv (hs.set i ⟨req, pc'⟩) cs log := by
  refine ⟨hi.calls, fun j req' c hj => ?_, fun j x resp key op hx hr hf => ?_,
    fun p j resp h => ?_, fun q k op r h => ?_⟩
  · rcases getElem?_set_cases hh hj with ⟨rfl, hx⟩ | ⟨-, hj⟩
    · cases hx
      exact hwait c rfl
    · exact hi.waiting j req' c hj
  · rcases getElem?_set_cases hh hx with ⟨rfl, rfl⟩ | ⟨-, hx⟩
    · exact hheld resp key op hr hf
    · exact hi.held j x resp key op hx hr hf
  · obtain ⟨x, hx, hfin, hsrc⟩ := hi.wrote p j resp h
    have hji : j ≠ i := by
      rintro rfl
      rw [hh] at hx
      cases hx
      exact hpc hfin
    exact ⟨x, by rw [List.getElem?_set_ne (Ne.symm hji), hx], hfin, hsrc⟩
  · obtain ⟨x, hx, hf⟩ := hi.rets q k op r h
    rw [getElem?_set_of hh]
    split
    · subst k
      rw [hh] at hx
      cases hx
      exact ⟨_, rfl, hf⟩
    · exact ⟨x, hx, hf⟩

/-- Goroutine `i` moves to a place where it neither waits nor holds a response. -/
theorem leave (hi : ShareInv hs cs log) {i : Nat} {req : Request} {pc pc' : HandlerPc}
    (hh : hs[i]? = some ⟨req, pc⟩) (hpc : pc ≠ .finished) (hres : pc'.response? = none)
    (hwait : ∀ c, pc' ≠ .waiting c) : ShareInv (hs.set i ⟨req, pc'⟩) cs log :=
  hi.setHandler hh hpc (fun c h => absurd h (hwait c)) fun _ _ _ h => by rw [hres] at h; cases h

/-- A call changes to `call'`, whose result came back from its leader's backend call. -/
theorem setCall (hi : ShareInv hs cs log) {c : Nat} {call call' : Call} (hc : cs[c]? = some call)
    (hres : ∀ r, call'.result = some r → ∃ q < log.length, ∃ op : Op,
      log[q]? = some (.ret (some call'.leader) op r) ∧ op.key = call'.key) :
    ShareInv hs (cs.set c call') log := by
  refine ⟨fun c' y r hy hr => ?_, hi.waiting, hi.held, hi.wrote, hi.rets⟩
  rcases getElem?_set_cases hc hy with ⟨-, rfl⟩ | ⟨-, hy⟩
  exacts [hres r hr, hi.calls c' y r hy hr]

/-- `Do` adds a call with no result. -/
theorem addCall (hi : ShareInv hs cs log) (key : Bytes) (i : Nat) :
    ShareInv hs (cs ++ [⟨key, i, none, none, false⟩]) log := by
  refine ⟨fun c call r hc hr => ?_, hi.waiting, hi.held, hi.wrote, hi.rets⟩
  rcases getElem?_concat_cases hc with hc | ⟨-, rfl⟩
  · exact hi.calls c call r hc hr
  · cases hr

end ShareInv

/-! ## Along every run -/

section Runs

variable {B : Backend σ} {faults : Bool} {input : Bytes} {s : σ} {w w' : World σ}

end Runs

/-! ## One return per goroutine -/

section Returns

variable {B : Backend σ} {s : σ} {w : World σ} {lin : List (Effect × Nat)}

end Returns

/-! ## A get that joins a call -/

section Joined

variable {B : Backend σ} {faults : Bool} {input : Bytes} {s : σ} {w : World σ}

end Joined

end GoBuildCache.Broker
