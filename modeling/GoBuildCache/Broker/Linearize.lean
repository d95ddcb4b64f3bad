import GoBuildCache.Broker.History

/-!
# The backend's calls linearize

A goroutine's backend call is made in one step (`lead`), takes effect in a later one (`exec`) and
returns in a later one still (`ret`); between them any other thread may step, and make its own
backend call take effect.  `Run`'s `Close` is made once every goroutine has returned, and takes
effect as it returns.  This module proves that, whatever the backend and the schedule, the calls
that have taken effect form one sequential run of the backend (`backend_linearizable`):

* every effect answers what the backend answers in the state the effects before it leave
  (`Serial`), and the backend is in the state all of them leave (`replay`);
* every return in the log is the answer of one effect, of the same caller and call, and every
  effect is of a call in the log;
* the order of the effects never contradicts real time: a call that returned before another was
  made took effect before it.

`LinInv` is the invariant behind it: the effects, each with the length of the log when it took
effect, and how they stand to the calls and returns of the log, to the goroutines in a backend
call and to the calls of `sfGroup`.  Since `sfGroup` runs one call of a key at a time, the calls of
one key take effect one after the other, each after the one before it has returned
(`LinInv.keySerial`); `Broker/Provenance` reads read-your-writes off it.
-/

namespace GoBuildCache.Broker

open Protocol

variable {σ : Type}

/-! ## Sequential runs of the backend -/

/-- A backend call taking effect: the goroutine that made it (`none` for `Run`), the call, and
what the backend answered. -/
structure Effect where
  who : Option Nat
  op : Op
  answer : Except Bytes Payload
  deriving DecidableEq

/-- The state the effects leave the backend in, from `s`. -/
def replay (B : Backend σ) (s : σ) (es : List Effect) : σ := es.foldl (fun s e => (B.call s e.op).2) s

/-- Every effect answers what the backend answers in the state the effects before it leave. -/
def Serial (B : Backend σ) : σ → List Effect → Prop
  | _, [] => True
  | s, e :: es => e.answer = (B.call s e.op).1 ∧ Serial B (B.call s e.op).2 es

section Serial

variable {B : Backend σ}

theorem replay_append (s : σ) (l₁ l₂ : List Effect) :
    replay B s (l₁ ++ l₂) = replay B (replay B s l₁) l₂ :=
  List.foldl_append _ _ _ _

theorem serial_append {s : σ} {l₁ l₂ : List Effect} :
    Serial B s (l₁ ++ l₂) ↔ Serial B s l₁ ∧ Serial B (replay B s l₁) l₂ := by
  induction l₁ generalizing s with
  | nil => exact ⟨fun h => ⟨trivial, h⟩, fun h => h.2⟩
  | cons e l ih => exact (and_congr_right fun _ => ih).trans and_assoc.symm

/-- An effect of the sequential run answers in the state the effects before it leave. -/
theorem Serial.answer_eq {s : σ} {l : List Effect} (h : Serial B s l) {k : Nat} {e : Effect}
    (hk : l[k]? = some e) : e.answer = (B.call (replay B s (l.take k)) e.op).1 := by
  obtain ⟨hlt, he⟩ := List.getElem?_eq_some_iff.1 hk
  have hd : l.drop k = e :: l.drop (k + 1) := by rw [List.drop_eq_getElem_cons hlt, he]
  rw [← List.take_append_drop k l, serial_append, hd] at h
  exact h.2.1

end Serial

/-! ## The invariant -/

/-- A call or a return of the backend. -/
def Event.isBackend : Event → Bool
  | .call .. | .ret .. => true
  | _ => false

/-- The two logs have the same calls and returns at each position. -/
def SameCalls (log log' : List Event) : Prop :=
  ∀ (q : Nat) (e : Event), e.isBackend = true → (log'[q]? = some e ↔ log[q]? = some e)

/-- Events that are neither a call nor a return, appended. -/
theorem sameCalls_append {log es : List Event} (hes : es.all (fun e => !e.isBackend) = true) :
    SameCalls log (log ++ es) := fun q e he =>
  ⟨fun h => (getElem?_append_cases h).resolve_right fun h' => by
      simpa [he] using List.all_eq_true.1 hes e h',
    getElem?_append_of_some es⟩

/-- The call of the effect has returned, with its answer. -/
def Returned (log : List Event) (e : Effect) : Prop :=
  ∃ q : Nat, log[q]? = some (.ret e.who e.op e.answer)

theorem SameCalls.call {log log' : List Event} (h : SameCalls log log') {q : Nat} {who : Option Nat}
    {op : Op} : log'[q]? = some (.call who op) ↔ log[q]? = some (.call who op) :=
  h q _ rfl

theorem SameCalls.ret {log log' : List Event} (h : SameCalls log log') {q : Nat} {who : Option Nat}
    {op : Op} {r : Except Bytes Payload} : log'[q]? = some (.ret who op r) ↔ log[q]? = some (.ret who op r) :=
  h q _ rfl

theorem SameCalls.returned {log log' : List Event} (h : SameCalls log log') {e : Effect} :
    Returned log' e ↔ Returned log e :=
  exists_congr fun q => h q _ rfl

/-- The goroutine of the effect is still in its backend call, which has taken effect with the
effect's answer. -/
def World.InCall (w : World σ) (e : Effect) : Prop :=
  ∃ (i : Nat) (req : Request) (c : Nat) (key : Bytes), e.who = some i ∧
    w.handlers[i]? = some ⟨req, .calling c⟩ ∧ (w.calls.map Call.answer)[c]? = some (some e.answer) ∧
    flightOf req = some (key, e.op)

/-- `Run` has not returned from a `Close`: it may still call it, or is in it. -/
def RunPc.preClose : RunPc → Bool
  | .closeSending _ | .selecting | .sendFailed _ | .returned _ => false
  | _ => true

/-- `Run` does not go back before a return from `Close`. -/
theorem RunStep.preClose_mono {B : Backend σ} {faults : Bool} {w w' : World σ} (h : RunStep B faults w w')
    (hp : w.main.preClose = false) : w'.main.preClose = false := by
  cases h <;> first | rfl | (rw [‹w.main = _›] at hp; cases hp)

/-- The thread may still make a backend call take effect: a goroutine before `Do`, or in a backend
call that has not taken effect, or `Run` before it has returned from a `Close`. -/
def World.MayAct (w : World σ) : Option Nat → Prop
  | some i => ∃ req, w.handlers[i]? = some ⟨req, .start⟩ ∨
      ∃ c : Nat, w.handlers[i]? = some ⟨req, .calling c⟩ ∧ (w.calls.map Call.answer)[c]? = some none
  | none => w.main.preClose = true

/-- What the effects keep, each with the length of the log when it took effect: they are a
sequential run of the backend from `s` that leaves it in its state, in the order they took
effect; each took effect after every call of its thread in the log and before its return, and the
returns in the log are theirs; a goroutine whose call has taken effect and not returned is in its
call; a thread that may still act has no effect; and an effect of a key comes after the return of
every earlier effect of that key, and after the return of every effect of its key that was there
when its call was made. -/
structure LinInv (B : Backend σ) (s : σ) (w : World σ) (lin : List (Effect × Nat)) : Prop where
  serial : Serial B s (lin.map Prod.fst)
  backend : w.backend = replay B s (lin.map Prod.fst)
  sorted : lin.Pairwise fun x y => x.2 ≤ y.2
  bound : ∀ x ∈ lin, x.2 ≤ w.log.length
  called : ∀ x ∈ lin, ∃ q < x.2, w.log[q]? = some (.call x.1.who x.1.op)
  callsBefore : ∀ x ∈ lin, ∀ (q : Nat) (op : Op), w.log[q]? = some (.call x.1.who op) → q < x.2
  returned : ∀ (q : Nat) (who : Option Nat) (op : Op) (r : Except Bytes Payload),
    w.log[q]? = some (.ret who op r) → ∃ x ∈ lin, x.1 = ⟨who, op, r⟩ ∧ x.2 ≤ q
  inCall : ∀ x ∈ lin, ¬ Returned w.log x.1 → w.InCall x.1
  answered : ∀ (i : Nat) (req : Request) (c : Nat) (r : Except Bytes Payload) (key : Bytes) (op : Op),
    w.handlers[i]? = some ⟨req, .calling c⟩ → (w.calls.map Call.answer)[c]? = some (some r) →
    flightOf req = some (key, op) → ∃ x ∈ lin, x.1 = ⟨some i, op, r⟩
  noRet : ∀ (i : Nat) (req : Request) (c : Nat), w.handlers[i]? = some ⟨req, .calling c⟩ →
    ∀ (q : Nat) (op : Op) (r : Except Bytes Payload), w.log[q]? ≠ some (.ret (some i) op r)
  logged : ∀ (i : Nat) (req : Request) (c : Nat) (key : Bytes) (op : Op),
    w.handlers[i]? = some ⟨req, .calling c⟩ → flightOf req = some (key, op) →
    ∃ q : Nat, w.log[q]? = some (.call (some i) op)
  fresh : ∀ x ∈ lin, ¬ w.MayAct x.1.who
  startClean : ∀ (i : Nat) (req : Request), w.handlers[i]? = some ⟨req, .start⟩ →
    ∀ (q : Nat) (e : Event), w.log[q]? = some e → e.isBackend = true → e.who ≠ some i
  whoBound : ∀ (q : Nat) (e : Event) (i : Nat), w.log[q]? = some e → e.who = some i →
    i < w.handlers.length
  nodup : (lin.map fun x => x.1.who).Nodup
  closeByRun : ∀ x ∈ lin, x.1.op = .close → x.1.who = none
  leadClean : ∀ (i : Nat) (req : Request) (c : Nat) (key : Bytes) (op : Op),
    w.handlers[i]? = some ⟨req, .calling c⟩ → flightOf req = some (key, op) →
    ∀ x ∈ lin, x.1.op.key = key → x.1.who ≠ some i → Returned w.log x.1 ∧
      ∀ (q qc : Nat) (op' : Op), w.log[q]? = some (.ret x.1.who x.1.op x.1.answer) →
        w.log[qc]? = some (.call (some i) op') → q < qc
  keySerial : ∀ (k k' : Nat) (x y : Effect × Nat), k < k' → lin[k]? = some x → lin[k']? = some y →
    x.1.op.key = y.1.op.key → x.1.op ≠ .close → Returned w.log x.1 ∧
      ∀ (q qc : Nat) (op' : Op), w.log[q]? = some (.ret x.1.who x.1.op x.1.answer) →
        w.log[qc]? = some (.call y.1.who op') → q < qc

/-! ## Positions -/

/-- Where the keys `f` gives have no duplicate, two positions with one key are one position. -/
theorem index_eq_of_nodup_map {α β : Type} {f : α → β} {l : List α} (h : (l.map f).Nodup)
    {i j : Nat} {a b : α} (ha : l[i]? = some a) (hb : l[j]? = some b) (he : f a = f b) : i = j :=
  index_eq_of_nodup_filterMap (f := some ∘ f) (by rwa [List.filterMap_eq_map]) ha hb rfl
    (congrArg some he.symm)

/-- In a list sorted by positions, an earlier element has no later position. -/
theorem le_of_pairwise {l : List (Effect × Nat)} (h : l.Pairwise fun x y => x.2 ≤ y.2) {k k' : Nat}
    {x y : Effect × Nat} (hk : l[k]? = some x) (hk' : l[k']? = some y) (hlt : k ≤ k') : x.2 ≤ y.2 := by
  obtain ⟨h1, rfl⟩ := List.getElem?_eq_some_iff.1 hk
  obtain ⟨h2, rfl⟩ := List.getElem?_eq_some_iff.1 hk'
  rcases Nat.lt_or_eq_of_le hlt with hlt | rfl
  · exact List.pairwise_iff_getElem.1 h k k' h1 h2 hlt
  · exact le_rfl

/-- The only call without a key is `Close`. -/
theorem Op.eq_close_of_key {op : Op} (h : op.key = []) : op = .close := by
  cases op with
  | put a => exact absurd (List.append_eq_nil.1 h).1 (by decide)
  | get a => exact absurd (List.append_eq_nil.1 h).1 (by decide)
  | close => rfl

/-- Two goroutines in backend calls of one key are one goroutine: `sfGroup` has one call of a key
in flight. -/
theorem FlightInv.leader_eq {hs : List Handler} {cs : List Call} (hF : FlightInv hs cs)
    {i j c c' : Nat} {x y : Handler} {key : Bytes} {op op' : Op} (hx : hs[i]? = some x)
    (hy : hs[j]? = some y) (hc : x.pc = .calling c) (hc' : y.pc = .calling c')
    (hf : flightOf x.req = some (key, op)) (hf' : flightOf y.req = some (key, op')) : i = j := by
  obtain ⟨u, hu, op₁, hu'⟩ := hF.key i x c hx (by rw [hc]; rfl)
  obtain ⟨v, hv, op₂, hv'⟩ := hF.key j y c' hy (by rw [hc']; rfl)
  obtain ⟨u', hu₁, hl, hd⟩ := hF.leads i x c hx (.inl hc)
  obtain ⟨v', hv₁, hl', hd'⟩ := hF.leads j y c' hy (.inl hc')
  rw [hu] at hu₁
  rw [hv] at hv₁
  cases hu₁
  cases hv₁
  have hku : u.key = key := by rw [hf] at hu'; exact (Prod.mk.inj (Option.some.inj hu')).1.symm
  have hkv : v.key = key := by rw [hf'] at hv'; exact (Prod.mk.inj (Option.some.inj hv')).1.symm
  obtain rfl := hF.unique c c' u v hu hv hd hd' (hku.trans hkv.symm)
  rw [hu] at hv
  cases hv
  exact hl.symm.trans hl'

/-- A goroutine in a backend call has a call in the map, which holds it. -/
theorem FlightInv.lt_of_calling {hs : List Handler} {cs : List Call} (hF : FlightInv hs cs) {i c : Nat}
    {x : Handler} (hx : hs[i]? = some x) (hc : x.pc = .calling c) : c < cs.length := by
  obtain ⟨u, hu, -⟩ := hF.leads i x c hx (.inl hc)
  exact (List.getElem?_eq_some_iff.1 hu).1

/-- Goroutine `i` moving between two places outside a backend call leaves every goroutine before
`Do` or in a backend call where it is. -/
theorem handlers_kept {hs : List Handler} {i : Nat} {req : Request} {pc pc' : HandlerPc}
    (hh : hs[i]? = some ⟨req, pc⟩) (hpc : ∀ c, pc ≠ .calling c) (hs' : pc' ≠ .start)
    (hpc' : ∀ c, pc' ≠ .calling c) :
    (∀ (j : Nat) (x : Handler), (hs.set i ⟨req, pc'⟩)[j]? = some x →
      x.pc = .start ∨ (∃ c, x.pc = .calling c) → hs[j]? = some x) ∧
    ∀ (j : Nat) (x : Handler) (c : Nat), hs[j]? = some x → x.pc = .calling c →
      (hs.set i ⟨req, pc'⟩)[j]? = some x := by
  refine ⟨fun j x hx hp => ?_, fun j x c hx hp => ?_⟩
  · rcases getElem?_set_cases hh hx with ⟨-, rfl⟩ | ⟨-, hx⟩
    · rcases hp with hp | ⟨c, hp⟩
      exacts [absurd hp hs', absurd hp (hpc' c)]
    · exact hx
  · have hji : j ≠ i := by
      rintro rfl
      rw [hh] at hx
      cases hx
      exact hpc c hp
    rw [List.getElem?_set_ne (Ne.symm hji), hx]

/-- Storing a result or marking a call done leaves every answer. -/
theorem answers_set {cs : List Call} {c : Nat} {call call' : Call} (hc : cs[c]? = some call)
    (ha : call'.answer = call.answer) : (cs.set c call').map Call.answer = cs.map Call.answer := by
  rw [List.map_set, ha]
  exact set_eq_of_getElem? (by rw [List.getElem?_map, hc]; rfl)

section Steps

variable {B : Backend σ} {s : σ} {w w' : World σ} {lin : List (Effect × Nat)}

/-- A step that makes no backend call take effect and logs no call or return: the goroutines before
`Do` or in a backend call stay where they are, or are new ones before `Do`; the answers, the
backend and every event's goroutine are as before, and `Run` does not go back before a return from
`Close`. -/
theorem LinInv.frame (hi : LinInv B s w lin)
    (hH₁ : ∀ (j : Nat) (x : Handler), w'.handlers[j]? = some x → x.pc = .start ∨ (∃ c, x.pc = .calling c) →
      w.handlers[j]? = some x ∨ (w.handlers.length ≤ j ∧ x.pc = .start))
    (hH₂ : ∀ (j : Nat) (x : Handler) (c : Nat), w.handlers[j]? = some x → x.pc = .calling c →
      w'.handlers[j]? = some x)
    (hlen : w.handlers.length ≤ w'.handlers.length) (hC : w'.calls.map Call.answer = w.calls.map Call.answer)
    {es : List Event} (hlog : w'.log = w.log ++ es) (hes : es.all (fun e => !e.isBackend) = true)
    (hwho : ∀ e ∈ es, ∀ j, e.who = some j → j < w'.handlers.length) (hB : w'.backend = w.backend)
    (hM : w.main.preClose = false → w'.main.preClose = false) : LinInv B s w' lin := by
  have hL : SameCalls w.log w'.log := hlog ▸ sameCalls_append hes
  have hll : w.log.length ≤ w'.log.length := by rw [hlog, List.length_append]; omega
  refine
    { serial := hi.serial
      backend := hB.trans hi.backend
      sorted := hi.sorted
      bound := fun x hx => (hi.bound x hx).trans hll
      called := fun x hx => ?_
      callsBefore := fun x hx q op h => hi.callsBefore x hx q op (hL.call.1 h)
      returned := fun q who op r h => hi.returned q who op r (hL.ret.1 h)
      inCall := fun x hx hn => ?_
      answered := fun j req c r key op hj ha hf => ?_
      noRet := fun j req c hj q op r h => ?_
      logged := fun j req c key op hj hf => ?_
      fresh := fun x hx hm => ?_
      startClean := fun j req hj q e he hb hwe => ?_
      whoBound := fun q e j he hwe => ?_
      nodup := hi.nodup
      closeByRun := hi.closeByRun
      leadClean := fun j req c key op hj hf x hx hk hne => ?_
      keySerial := fun k k' x y hk hx hy hkey hne => ?_ }
  · obtain ⟨q, hq, h⟩ := hi.called x hx
    exact ⟨q, hq, hL.call.2 h⟩
  · obtain ⟨j, req, c, key, hw, hj, ha, hf⟩ := hi.inCall x hx fun h => hn (hL.returned.2 h)
    exact ⟨j, req, c, key, hw, hH₂ j _ c hj rfl, hC ▸ ha, hf⟩
  · rcases hH₁ j _ hj (.inr ⟨c, rfl⟩) with hj | ⟨-, h⟩
    · exact hi.answered j req c r key op hj (hC ▸ ha) hf
    · cases h
  · rcases hH₁ j _ hj (.inr ⟨c, rfl⟩) with hj | ⟨-, h⟩
    · exact hi.noRet j req c hj q op r (hL.ret.1 h)
    · cases h
  · rcases hH₁ j _ hj (.inr ⟨c, rfl⟩) with hj | ⟨-, h⟩
    · obtain ⟨q, hq⟩ := hi.logged j req c key op hj hf
      exact ⟨q, hL.call.2 hq⟩
    · cases h
  · refine hi.fresh x hx ?_
    rcases hw : x.1.who with _ | j <;> rw [hw] at hm
    · cases h : w.main.preClose
      · exact absurd ((hM h).symm.trans hm) Bool.false_ne_true
      · exact h
    · obtain ⟨req, hs | ⟨c, hc, ha⟩⟩ := hm
      · rcases hH₁ j _ hs (.inl rfl) with hs | ⟨hj, -⟩
        · exact ⟨req, .inl hs⟩
        · obtain ⟨q, -, hq⟩ := hi.called x hx
          rw [hw] at hq
          exact absurd (hi.whoBound q _ j hq rfl) (by omega)
      · rcases hH₁ j _ hc (.inr ⟨c, rfl⟩) with hc | ⟨-, h⟩
        · exact ⟨req, .inr ⟨c, hc, hC ▸ ha⟩⟩
        · cases h
  · rcases hH₁ j _ hj (.inl rfl) with hj | ⟨hjl, -⟩
    · exact hi.startClean j req hj q e ((hL q e hb).1 he) hb hwe
    · exact absurd (hi.whoBound q e j ((hL q e hb).1 he) hwe) (by omega)
  · rw [hlog] at he
    rcases getElem?_append_cases he with he | he
    · exact (hi.whoBound q e j he hwe).trans_le hlen
    · exact hwho e he j hwe
  · rcases hH₁ j _ hj (.inr ⟨c, rfl⟩) with hj | ⟨-, h⟩
    · obtain ⟨h1, h2⟩ := hi.leadClean j req c key op hj hf x hx hk hne
      exact ⟨hL.returned.2 h1, fun q qc op' hq hqc => h2 q qc op' (hL.ret.1 hq) (hL.call.1 hqc)⟩
    · cases h
  · obtain ⟨h1, h2⟩ := hi.keySerial k k' x y hk hx hy hkey hne
    exact ⟨hL.returned.2 h1, fun q qc op' hq hqc => h2 q qc op' (hL.ret.1 hq) (hL.call.1 hqc)⟩

/-- A goroutine makes its backend call: no effect is of it, every effect of its key has returned,
and it logs the call. -/
theorem LinInv.lead (hi : LinInv B s w lin) (hF : FlightInv w.handlers w.calls) {i : Nat}
    {req : Request} {key : Bytes} {op : Op} (hh : w.handlers[i]? = some ⟨req, .start⟩)
    (hf : flightOf req = some (key, op)) (hc : findCall w.calls key = none) :
    LinInv B s { w with
      handlers := w.handlers.set i ⟨req, .calling w.calls.length⟩,
      calls := w.calls ++ [⟨key, i, none, none, false⟩], log := w.log ++ [.call (some i) op] } lin := by
  have hnoI : ∀ x ∈ lin, x.1.who ≠ some i := fun x hx he => hi.fresh x hx (he ▸ ⟨req, .inl hh⟩)
  have hlt := (List.getElem?_eq_some_iff.1 hh).1
  have hA : ((w.calls ++ [(⟨key, i, none, none, false⟩ : Call)]).map Call.answer) =
      w.calls.map Call.answer ++ [none] := by rw [List.map_append]; rfl
  -- the goroutines other than `i` stay where they are
  have hother : ∀ {j : Nat} {x : Handler}, (w.handlers.set i ⟨req, .calling w.calls.length⟩)[j]? = some x →
      (j = i ∧ x = ⟨req, .calling w.calls.length⟩) ∨ (j ≠ i ∧ w.handlers[j]? = some x) :=
    fun hx => getElem?_set_cases hh hx
  -- an answer of a call in the map is where it was
  have hold : ∀ {j c : Nat} {x : Handler} {a : Option (Except Bytes Payload)}, w.handlers[j]? = some x →
      x.pc = .calling c → ((w.calls.map Call.answer ++ [none])[c]? = some a ↔
        (w.calls.map Call.answer)[c]? = some a) := fun hx hc => by
    rw [List.getElem?_append_left (by rw [List.length_map]; exact hF.lt_of_calling hx hc)]
  have hlog : ∀ {q : Nat} {e : Event}, (w.log ++ [.call (some i) op])[q]? = some e →
      w.log[q]? = some e ∨ (q = w.log.length ∧ e = .call (some i) op) := getElem?_concat_cases
  have hret : ∀ {q : Nat} {who : Option Nat} {op' : Op} {r : Except Bytes Payload},
      (w.log ++ [.call (some i) op])[q]? = some (.ret who op' r) → w.log[q]? = some (.ret who op' r) :=
    fun h => (hlog h).resolve_right fun ⟨_, h⟩ => Event.noConfusion h
  have hmono : ∀ {e : Effect}, Returned w.log e → Returned (w.log ++ [.call (some i) op]) e :=
    fun h => Exists.imp (fun _ hq => getElem?_append_of_some _ hq) h
  refine
    { serial := hi.serial
      backend := hi.backend
      sorted := hi.sorted
      bound := fun x hx => (hi.bound x hx).trans (by simp)
      called := fun x hx => ?_
      callsBefore := fun x hx q op' h => ?_
      returned := fun q who op' r h => hi.returned q who op' r (hret h)
      inCall := fun x hx hn => ?_
      answered := fun j req' c r key' op' hj ha hf' => ?_
      noRet := fun j req' c hj q op' r h => ?_
      logged := fun j req' c key' op' hj hf' => ?_
      fresh := fun x hx hm => ?_
      startClean := fun j req' hj q e he hb hwe => ?_
      whoBound := fun q e j he hwe => ?_
      nodup := hi.nodup
      closeByRun := hi.closeByRun
      leadClean := fun j req' c key' op' hj hf' x hx hk hne => ?_
      keySerial := fun k k' x y hk hx hy hkey hne => ?_ }
  · obtain ⟨q, hq, h⟩ := hi.called x hx
    exact ⟨q, hq, getElem?_append_of_some _ h⟩
  · rcases hlog h with h | ⟨rfl, he⟩
    · exact hi.callsBefore x hx q op' h
    · exact absurd (Event.call.inj he).1 (hnoI x hx)
  · obtain ⟨j, req', c, key', hw, hj, ha, hf'⟩ := hi.inCall x hx fun h => hn (hmono h)
    have hji : j ≠ i := by rintro rfl; rw [hh] at hj; cases hj
    exact ⟨j, req', c, key', hw, by rw [List.getElem?_set_ne (Ne.symm hji), hj], by
      rw [hA]; exact (hold hj rfl).2 ha, hf'⟩
  · rw [hA] at ha
    rcases hother hj with ⟨rfl, h⟩ | ⟨-, hj⟩
    · cases h
      rw [List.getElem?_append_right (by simp), List.length_map, Nat.sub_self] at ha
      cases ha
    · exact hi.answered j req' c r key' op' hj ((hold hj rfl).1 ha) hf'
  · rcases hother hj with ⟨rfl, -⟩ | ⟨-, hj⟩
    · exact hi.startClean j req hh q _ (hret h) rfl rfl
    · exact hi.noRet j req' c hj q op' r (hret h)
  · rcases hother hj with ⟨rfl, h⟩ | ⟨-, hj⟩
    · cases h
      rw [hf] at hf'
      cases hf'
      exact ⟨w.log.length, List.getElem?_concat_length _ _⟩
    · obtain ⟨q, hq⟩ := hi.logged j req' c key' op' hj hf'
      exact ⟨q, getElem?_append_of_some _ hq⟩
  · refine hi.fresh x hx ?_
    rcases hw : x.1.who with _ | j <;> rw [hw] at hm
    · exact hm
    · have hji : j ≠ i := fun h => hnoI x hx (hw.trans (congrArg some h))
      obtain ⟨req', hs | ⟨c, hc, ha⟩⟩ := hm
      · exact ⟨req', .inl (by rwa [List.getElem?_set_ne (Ne.symm hji)] at hs)⟩
      · rw [List.getElem?_set_ne (Ne.symm hji)] at hc
        rw [hA] at ha
        exact ⟨req', .inr ⟨c, hc, (hold hc rfl).1 ha⟩⟩
  · rcases hother hj with ⟨rfl, h⟩ | ⟨hji, hj⟩
    · cases h
    · rcases hlog he with he | ⟨-, rfl⟩
      · exact hi.startClean j req' hj q e he hb hwe
      · exact hji (Option.some.inj hwe).symm
  · rw [List.length_set]
    rcases hlog he with he | ⟨-, rfl⟩
    · exact hi.whoBound q e j he hwe
    · cases hwe
      exact hlt
  · rcases hother hj with ⟨rfl, h⟩ | ⟨hji, hj⟩
    · cases h
      rw [hf] at hf'
      cases hf'
      have hr : Returned w.log x.1 := by
        by_contra hn
        obtain ⟨j', req'', c', key'', hw, hj', -, hf''⟩ := hi.inCall x hx hn
        obtain ⟨u, hu, -, hd⟩ := hF.leads j' _ c' hj' (.inl rfl)
        obtain ⟨v, hv, op₁, hv'⟩ := hF.key j' _ c' hj' rfl
        rw [hu] at hv
        cases hv
        have hkey : u.key = key := by
          rw [hf''] at hv'
          exact (Prod.mk.inj (Option.some.inj hv')).1.symm.trans ((flightOf_key hf'').trans hk)
        exact absurd (findCall_eq_none hc hu hkey) (by simp [hd])
      refine ⟨hmono hr, fun q qc op'' hq hqc => ?_⟩
      have hq' := (List.getElem?_eq_some_iff.1 (hret hq)).1
      rcases hlog hqc with hqc | ⟨rfl, -⟩
      · exact absurd rfl (hi.startClean _ req hh qc _ hqc rfl)
      · exact hq'
    · obtain ⟨h1, h2⟩ := hi.leadClean j req' c key' op' hj hf' x hx hk hne
      refine ⟨hmono h1, fun q qc op'' hq hqc => h2 q qc op'' (hret hq) ?_⟩
      rcases hlog hqc with hqc | ⟨-, h⟩
      · exact hqc
      · exact absurd (Option.some.inj (Event.call.inj h).1) hji
  · obtain ⟨h1, h2⟩ := hi.keySerial k k' x y hk hx hy hkey hne
    refine ⟨hmono h1, fun q qc op'' hq hqc => h2 q qc op'' (hret hq) ?_⟩
    rcases hlog hqc with hqc | ⟨-, h⟩
    · exact hqc
    · exact absurd (Event.call.inj h).1 (hnoI y (List.getElem?_mem hy))

/-- A goroutine's backend call takes effect: the effect is the last one, at the end of the log. -/
theorem LinInv.exec (hi : LinInv B s w lin) (hF : FlightInv w.handlers w.calls) {i : Nat}
    {req : Request} {c : Nat} {call : Call} {key : Bytes} {op : Op}
    (hh : w.handlers[i]? = some ⟨req, .calling c⟩) (hf : flightOf req = some (key, op))
    (hcall : w.calls[c]? = some call) (ha : call.answer = none) :
    LinInv B s { w with
      calls := w.calls.set c { call with answer := some (B.call w.backend op).1 },
      backend := (B.call w.backend op).2 }
      (lin ++ [(⟨some i, op, (B.call w.backend op).1⟩, w.log.length)]) := by
  have hans : (w.calls.map Call.answer)[c]? = some none := by rw [List.getElem?_map, hcall, Option.map_some', ha]
  have hnoI : ∀ x ∈ lin, x.1.who ≠ some i := fun x hx he => hi.fresh x hx (he ▸ ⟨req, .inr ⟨c, hh, hans⟩⟩)
  have hA : (w.calls.set c { call with answer := some (B.call w.backend op).1 }).map Call.answer =
      (w.calls.map Call.answer).set c (some (B.call w.backend op).1) := List.map_set
  -- the call of `i` is the only call with that number
  have hlead : ∀ {j c' : Nat} {x : Handler}, w.handlers[j]? = some x → x.pc = .calling c' → c' = c →
      j = i := by
    intro j c' x hx hc hcc
    subst hcc
    obtain ⟨u, hu, hl, -⟩ := hF.leads _ _ c' hx (.inl hc)
    obtain ⟨v, hv, hl', -⟩ := hF.leads _ _ c' hh (.inl rfl)
    rw [hu] at hv
    cases hv
    exact hl.symm.trans hl'
  have hold : ∀ {c' : Nat} {a : Option (Except Bytes Payload)}, c' ≠ c →
      (((w.calls.map Call.answer).set c (some (B.call w.backend op).1))[c']? = some a ↔
        (w.calls.map Call.answer)[c']? = some a) := by
    intro c' a hne
    rw [List.getElem?_set_ne (Ne.symm hne)]
  have hnew : ((w.calls.map Call.answer).set c (some (B.call w.backend op).1))[c]? =
      some (some (B.call w.backend op).1) :=
    List.getElem?_set_self (by rw [List.length_map]; exact hF.lt_of_calling hh rfl)
  have hmem : ∀ {x : Effect × Nat}, x ∈ lin ++ [(⟨some i, op, (B.call w.backend op).1⟩, w.log.length)] →
      x ∈ lin ∨ x = (⟨some i, op, (B.call w.backend op).1⟩, w.log.length) := fun hx => by
    simpa using hx
  refine
    { serial := ?_
      backend := ?_
      sorted := List.pairwise_append.2 ⟨hi.sorted, List.pairwise_singleton _ _, fun x hx y hy => by
        rw [List.mem_singleton.1 hy]; exact hi.bound x hx⟩
      bound := fun x hx => ?_
      called := fun x hx => ?_
      callsBefore := fun x hx q op' h => ?_
      returned := fun q who op' r h => ?_
      inCall := fun x hx hn => ?_
      answered := fun j req' c' r key' op' hj ha' hf' => ?_
      noRet := hi.noRet
      logged := hi.logged
      fresh := fun x hx hm => ?_
      startClean := hi.startClean
      whoBound := hi.whoBound
      nodup := ?_
      closeByRun := fun x hx hc => ?_
      leadClean := fun j req' c' key' op' hj hf' x hx hk hne => ?_
      keySerial := fun k k' x y hk hx hy hkey hne => ?_ }
  · rw [List.map_append]
    exact serial_append.2 ⟨hi.serial, by rw [← hi.backend]; exact ⟨rfl, trivial⟩⟩
  · rw [List.map_append, replay_append, ← hi.backend]
    rfl
  · rcases hmem hx with hx | rfl
    exacts [hi.bound x hx, le_rfl]
  · rcases hmem hx with hx | rfl
    · exact hi.called x hx
    · obtain ⟨q, hq⟩ := hi.logged i req c key op hh hf
      exact ⟨q, (List.getElem?_eq_some_iff.1 hq).1, hq⟩
  · rcases hmem hx with hx | rfl
    · exact hi.callsBefore x hx q op' h
    · exact (List.getElem?_eq_some_iff.1 h).1
  · obtain ⟨x, hx, he⟩ := hi.returned q who op' r h
    exact ⟨x, List.mem_append_left _ hx, he⟩
  · rcases hmem hx with hx | rfl
    · obtain ⟨j, req', c', key', hw, hj, ha', hf'⟩ := hi.inCall x hx hn
      have hne : c' ≠ c := by rintro rfl; rw [hans] at ha'; cases ha'
      exact ⟨j, req', c', key', hw, hj, by rw [hA]; exact (hold hne).2 ha', hf'⟩
    · exact ⟨i, req, c, key, rfl, hh, by rw [hA]; exact hnew, hf⟩
  · rw [hA] at ha'
    by_cases hcc : c' = c
    · obtain rfl := hlead hj rfl hcc
      subst hcc
      rw [hh] at hj
      cases hj
      rw [hf] at hf'
      cases hf'
      rw [hnew] at ha'
      cases ha'
      exact ⟨_, List.mem_append_right _ (List.mem_singleton_self _), rfl⟩
    · obtain ⟨x, hx, he⟩ := hi.answered j req' c' r key' op' hj ((hold hcc).1 ha') hf'
      exact ⟨x, List.mem_append_left _ hx, he⟩
  · rcases hmem hx with hx | rfl
    · refine hi.fresh x hx ?_
      rcases hw : x.1.who with _ | j <;> rw [hw] at hm
      · exact hm
      · obtain ⟨req', hs | ⟨c', hc, ha'⟩⟩ := hm
        · exact ⟨req', .inl hs⟩
        · rw [hA] at ha'
          by_cases hcc : c' = c
          · subst hcc
            rw [hnew] at ha'
            cases ha'
          · exact ⟨req', .inr ⟨c', hc, (hold hcc).1 ha'⟩⟩
    · obtain ⟨req', hs | ⟨c', hc, ha'⟩⟩ := hm
      · rw [hh] at hs
        cases hs
      · rw [hh] at hc
        cases hc
        rw [hA, hnew] at ha'
        cases ha'
  · rw [List.map_append]
    refine List.pairwise_append.2 ⟨hi.nodup, List.pairwise_singleton _ _, fun a ha b hb => ?_⟩
    obtain ⟨x, hx, rfl⟩ := List.mem_map.1 ha
    rw [List.mem_singleton.1 hb]
    exact hnoI x hx
  · rcases hmem hx with hx | rfl
    · exact hi.closeByRun x hx hc
    · exact absurd hc (flightOf_op_ne_close hf)
  · rcases hmem hx with hx | rfl
    · exact hi.leadClean j req' c' key' op' hj hf' x hx hk hne
    · have hji : i ≠ j := fun h => hne (congrArg some h)
      exact absurd (hF.leader_eq hh hj rfl rfl hf (hf'.trans (by rw [← hk, ← flightOf_key hf]))) hji
  · rcases getElem?_concat_cases hy with hy | ⟨rfl, rfl⟩
    · rcases getElem?_concat_cases hx with hx | ⟨rfl, -⟩
      · exact hi.keySerial k k' x y hk hx hy hkey hne
      · exact absurd hk (by have := (List.getElem?_eq_some_iff.1 hy).1; omega)
    · rcases getElem?_concat_cases hx with hx | ⟨rfl, -⟩
      · have hxm := List.getElem?_mem hx
        exact hi.leadClean i req c key op hh hf x hxm (hkey.trans (flightOf_key hf).symm) (hnoI x hxm)
      · exact absurd hk (lt_irrefl _)

/-- A goroutine's backend call returns its answer, which is the answer of its effect. -/
theorem LinInv.ret (hi : LinInv B s w lin) (hF : FlightInv w.handlers w.calls) {i : Nat}
    {req : Request} {c : Nat} {call : Call} {key : Bytes} {op : Op} {r : Except Bytes Payload}
    (hh : w.handlers[i]? = some ⟨req, .calling c⟩) (hf : flightOf req = some (key, op))
    (hcall : w.calls[c]? = some call) (ha : call.answer = some r) :
    LinInv B s { w with
      handlers := w.handlers.set i ⟨req, .called c⟩,
      calls := w.calls.set c { call with result := some r }, log := w.log ++ [.ret (some i) op r] } lin := by
  have hA : (w.calls.set c { call with result := some r }).map Call.answer = w.calls.map Call.answer :=
    answers_set hcall rfl
  have hans : (w.calls.map Call.answer)[c]? = some (some r) := by
    rw [List.getElem?_map, hcall, Option.map_some', ha]
  have hlt := (List.getElem?_eq_some_iff.1 hh).1
  have hother : ∀ {j : Nat} {x : Handler}, (w.handlers.set i ⟨req, .called c⟩)[j]? = some x →
      (x.pc = .start ∨ ∃ c', x.pc = .calling c') → j ≠ i ∧ w.handlers[j]? = some x := by
    intro j x hx hp
    rcases getElem?_set_cases hh hx with ⟨-, rfl⟩ | h
    · rcases hp with hp | ⟨c', hp⟩ <;> cases hp
    · exact h
  have hlog : ∀ {q : Nat} {e : Event}, (w.log ++ [.ret (some i) op r])[q]? = some e →
      w.log[q]? = some e ∨ (q = w.log.length ∧ e = .ret (some i) op r) := getElem?_concat_cases
  have hcall' : ∀ {q : Nat} {who : Option Nat} {op' : Op},
      (w.log ++ [.ret (some i) op r])[q]? = some (.call who op') → w.log[q]? = some (.call who op') :=
    fun h => (hlog h).resolve_right fun ⟨_, h⟩ => Event.noConfusion h
  have hmono : ∀ {e : Effect}, Returned w.log e → Returned (w.log ++ [.ret (some i) op r]) e :=
    fun h => Exists.imp (fun _ hq => getElem?_append_of_some _ hq) h
  -- a goroutine in a backend call of the key of `i` is `i`
  have hkey : ∀ {j c' : Nat} {req' : Request} {key' : Bytes} {op' : Op},
      w.handlers[j]? = some ⟨req', .calling c'⟩ → flightOf req' = some (key', op') → op.key = key' →
      j = i := fun hj hf' hk =>
    hF.leader_eq hj hh rfl rfl hf' (hf.trans (by rw [flightOf_key hf, hk]))
  refine
    { serial := hi.serial
      backend := hi.backend
      sorted := hi.sorted
      bound := fun x hx => (hi.bound x hx).trans (by simp)
      called := fun x hx => ?_
      callsBefore := fun x hx q op' h => hi.callsBefore x hx q op' (hcall' h)
      returned := fun q who op' r' h => ?_
      inCall := fun x hx hn => ?_
      answered := fun j req' c' r' key' op' hj ha' hf' => ?_
      noRet := fun j req' c' hj q op' r' h => ?_
      logged := fun j req' c' key' op' hj hf' => ?_
      fresh := fun x hx hm => ?_
      startClean := fun j req' hj q e he hb hwe => ?_
      whoBound := fun q e j he hwe => ?_
      nodup := hi.nodup
      closeByRun := hi.closeByRun
      leadClean := fun j req' c' key' op' hj hf' x hx hk hne => ?_
      keySerial := fun k k' x y hk hx hy hkey hne => ?_ }
  · obtain ⟨q, hq, h⟩ := hi.called x hx
    exact ⟨q, hq, getElem?_append_of_some _ h⟩
  · rcases hlog h with h | ⟨rfl, he⟩
    · exact hi.returned q who op' r' h
    · cases he
      obtain ⟨x, hx, he⟩ := hi.answered i req c r key op hh hans hf
      exact ⟨x, hx, he, hi.bound x hx⟩
  · obtain ⟨j, req', c', key', hw, hj, ha', hf'⟩ := hi.inCall x hx fun h => hn (hmono h)
    by_cases hji : j = i
    · subst hji
      rw [hh] at hj
      cases hj
      rw [hf] at hf'
      cases hf'
      rw [hans] at ha'
      cases ha'
      refine absurd ⟨w.log.length, ?_⟩ hn
      rw [hw, List.getElem?_concat_length]
    · exact ⟨j, req', c', key', hw, by rw [List.getElem?_set_ne (Ne.symm hji), hj], hA ▸ ha', hf'⟩
  · obtain ⟨-, hj⟩ := hother hj (.inr ⟨c', rfl⟩)
    exact hi.answered j req' c' r' key' op' hj (hA ▸ ha') hf'
  · obtain ⟨hji, hj⟩ := hother hj (.inr ⟨c', rfl⟩)
    rcases hlog h with h | ⟨-, he⟩
    · exact hi.noRet j req' c' hj q op' r' h
    · exact hji (Option.some.inj (Event.ret.inj he).1)
  · obtain ⟨-, hj⟩ := hother hj (.inr ⟨c', rfl⟩)
    obtain ⟨q, hq⟩ := hi.logged j req' c' key' op' hj hf'
    exact ⟨q, getElem?_append_of_some _ hq⟩
  · refine hi.fresh x hx ?_
    rcases hw : x.1.who with _ | j <;> rw [hw] at hm
    · exact hm
    · obtain ⟨req', hs | ⟨c', hc, ha'⟩⟩ := hm
      · exact ⟨req', .inl (hother hs (.inl rfl)).2⟩
      · exact ⟨req', .inr ⟨c', (hother hc (.inr ⟨c', rfl⟩)).2, hA ▸ ha'⟩⟩
  · obtain ⟨hji, hj⟩ := hother hj (.inl rfl)
    rcases hlog he with he | ⟨-, rfl⟩
    · exact hi.startClean j req' hj q e he hb hwe
    · exact hji (Option.some.inj hwe).symm
  · rw [List.length_set]
    rcases hlog he with he | ⟨-, rfl⟩
    · exact hi.whoBound q e j he hwe
    · cases hwe
      exact hlt
  · obtain ⟨hji, hjw⟩ := hother hj (.inr ⟨c', rfl⟩)
    obtain ⟨h1, h2⟩ := hi.leadClean j req' c' key' op' hjw hf' x hx hk hne
    refine ⟨hmono h1, fun q qc op'' hq hqc => ?_⟩
    rcases hlog hq with hq | ⟨-, he⟩
    · exact h2 q qc op'' hq (hcall' hqc)
    · obtain ⟨-, hop, -⟩ := Event.ret.inj he
      exact absurd (hkey hjw hf' (hop ▸ hk)) hji
  · obtain ⟨h1, h2⟩ := hi.keySerial k k' x y hk hx hy hkey hne
    refine ⟨hmono h1, fun q qc op'' hq hqc => ?_⟩
    rcases hlog hq with hq | ⟨-, he⟩
    · exact h2 q qc op'' hq (hcall' hqc)
    · obtain ⟨hw, -, -⟩ := Event.ret.inj he
      obtain ⟨q', hq'⟩ := h1
      exact absurd (hw ▸ hq') (hi.noRet i req c hh q' _ _)

/-- `Run` calls `Close`: no effect is of it. -/
theorem LinInv.closeCall (hi : LinInv B s w lin) {req : Request} (hm : w.main = .draining req) :
    LinInv B s { w with main := .closing req, log := w.log ++ [.call none .close] } lin := by
  have hnoRun : ∀ x ∈ lin, x.1.who ≠ none := fun x hx he =>
    hi.fresh x hx (by rw [he]; show w.main.preClose = true; rw [hm]; rfl)
  have hlog : ∀ {q : Nat} {e : Event}, (w.log ++ [.call none .close])[q]? = some e →
      w.log[q]? = some e ∨ (q = w.log.length ∧ e = .call none .close) := getElem?_concat_cases
  have hret : ∀ {q : Nat} {who : Option Nat} {op : Op} {r : Except Bytes Payload},
      (w.log ++ [.call none .close])[q]? = some (.ret who op r) → w.log[q]? = some (.ret who op r) :=
    fun h => (hlog h).resolve_right fun ⟨_, h⟩ => Event.noConfusion h
  have hmono : ∀ {e : Effect}, Returned w.log e → Returned (w.log ++ [.call none .close]) e :=
    fun h => Exists.imp (fun _ hq => getElem?_append_of_some _ hq) h
  have hcallOf : ∀ {q : Nat} {i : Nat} {op : Op},
      (w.log ++ [.call none .close])[q]? = some (.call (some i) op) → w.log[q]? = some (.call (some i) op) :=
    fun h => (hlog h).resolve_right fun ⟨_, h⟩ => Option.noConfusion (Event.call.inj h).1
  refine
    { serial := hi.serial
      backend := hi.backend
      sorted := hi.sorted
      bound := fun x hx => (hi.bound x hx).trans (by simp)
      called := fun x hx => ?_
      callsBefore := fun x hx q op h => ?_
      returned := fun q who op r h => hi.returned q who op r (hret h)
      inCall := fun x hx hn => hi.inCall x hx fun h => hn (hmono h)
      answered := hi.answered
      noRet := fun j req' c hj q op r h => hi.noRet j req' c hj q op r (hret h)
      logged := fun j req' c key op hj hf => ?_
      fresh := fun x hx hm => ?_
      startClean := fun j req' hj q e he hb hwe => ?_
      whoBound := fun q e j he hwe => ?_
      nodup := hi.nodup
      closeByRun := hi.closeByRun
      leadClean := fun j req' c key op hj hf x hx hk hne => ?_
      keySerial := fun k k' x y hk hx hy hkey hne => ?_ }
  · obtain ⟨q, hq, h⟩ := hi.called x hx
    exact ⟨q, hq, getElem?_append_of_some _ h⟩
  · rcases hlog h with h | ⟨-, he⟩
    · exact hi.callsBefore x hx q op h
    · exact absurd (Event.call.inj he).1 (hnoRun x hx)
  · obtain ⟨q, hq⟩ := hi.logged j req' c key op hj hf
    exact ⟨q, getElem?_append_of_some _ hq⟩
  · refine hi.fresh x hx ?_
    rcases hw : x.1.who with _ | j <;> rw [hw] at hm
    · exact absurd hw (hnoRun x hx)
    · exact hm
  · rcases hlog he with he | ⟨-, rfl⟩
    · exact hi.startClean j req' hj q e he hb hwe
    · cases hwe
  · rcases hlog he with he | ⟨-, rfl⟩
    · exact hi.whoBound q e j he hwe
    · cases hwe
  · obtain ⟨h1, h2⟩ := hi.leadClean j req' c key op hj hf x hx hk hne
    exact ⟨hmono h1, fun q qc op' hq hqc => h2 q qc op' (hret hq) (hcallOf hqc)⟩
  · obtain ⟨h1, h2⟩ := hi.keySerial k k' x y hk hx hy hkey hne
    refine ⟨hmono h1, fun q qc op' hq hqc => h2 q qc op' (hret hq) ?_⟩
    rcases hlog hqc with hqc | ⟨-, he⟩
    · exact hqc
    · exact absurd (Event.call.inj he).1 (hnoRun y (List.getElem?_mem hy))

/-- `Run`'s `Close` returns, taking effect as it does, after every goroutine has returned. -/
theorem LinInv.closeRet (hi : LinInv B s w lin) (hc : CloseInv w) {req : Request}
    (hm : w.main = .closing req) :
    LinInv B s { w with
      main := .closeSending (closeResponse req.id (B.call w.backend .close).1),
      backend := (B.call w.backend .close).2,
      log := w.log ++ [.ret none .close (B.call w.backend .close).1] }
      (lin ++ [(⟨none, .close, (B.call w.backend .close).1⟩, w.log.length)]) := by
  have hclosed : .call none .close ∈ w.log := hc.inClose (by rw [hm]; rfl)
  have hdone := (hc.quiet hclosed).1
  have hnot : ∀ {j : Nat} {x : Handler}, w.handlers[j]? = some x → x.pc = .finished :=
    fun hx => hdone _ (List.getElem?_mem hx)
  have hnoRun : ∀ x ∈ lin, x.1.who ≠ none := fun x hx he =>
    hi.fresh x hx (by rw [he]; show w.main.preClose = true; rw [hm]; rfl)
  have hlog : ∀ {q : Nat} {e : Event}, (w.log ++ [.ret none .close (B.call w.backend .close).1])[q]? =
      some e → w.log[q]? = some e ∨ (q = w.log.length ∧ e = .ret none .close (B.call w.backend .close).1) :=
    getElem?_concat_cases
  have hcall' : ∀ {q : Nat} {who : Option Nat} {op : Op},
      (w.log ++ [.ret none .close (B.call w.backend .close).1])[q]? = some (.call who op) →
        w.log[q]? = some (.call who op) :=
    fun h => (hlog h).resolve_right fun ⟨_, h⟩ => Event.noConfusion h
  have hmem : ∀ {x : Effect × Nat}, x ∈ lin ++ [(⟨none, .close, (B.call w.backend .close).1⟩, w.log.length)] →
      x ∈ lin ∨ x = (⟨none, .close, (B.call w.backend .close).1⟩, w.log.length) := fun hx => by
    simpa using hx
  refine
    { serial := ?_
      backend := ?_
      sorted := List.pairwise_append.2 ⟨hi.sorted, List.pairwise_singleton _ _, fun x hx y hy => by
        rw [List.mem_singleton.1 hy]; exact hi.bound x hx⟩
      bound := fun x hx => ?_
      called := fun x hx => ?_
      callsBefore := fun x hx q op h => ?_
      returned := fun q who op r h => ?_
      inCall := fun x hx hn => ?_
      answered := fun j req' c r key op hj => absurd (hnot hj) nofun
      noRet := fun j req' c hj => absurd (hnot hj) nofun
      logged := fun j req' c key op hj => absurd (hnot hj) nofun
      fresh := fun x hx hm' => ?_
      startClean := fun j req' hj => absurd (hnot hj) nofun
      whoBound := fun q e j he hwe => ?_
      nodup := ?_
      closeByRun := fun x hx hcl => ?_
      leadClean := fun j req' c key op hj => absurd (hnot hj) nofun
      keySerial := fun k k' x y hk hx hy hkey hne => ?_ }
  · rw [List.map_append]
    exact serial_append.2 ⟨hi.serial, by rw [← hi.backend]; exact ⟨rfl, trivial⟩⟩
  · rw [List.map_append, replay_append, ← hi.backend]
    rfl
  · rcases hmem hx with hx | rfl
    exacts [(hi.bound x hx).trans (by simp), by simp]
  · rcases hmem hx with hx | rfl
    · obtain ⟨q, hq, h⟩ := hi.called x hx
      exact ⟨q, hq, getElem?_append_of_some _ h⟩
    · obtain ⟨q, hq⟩ := List.mem_iff_getElem?.1 hclosed
      exact ⟨q, (List.getElem?_eq_some_iff.1 hq).1, getElem?_append_of_some _ hq⟩
  · rcases hmem hx with hx | rfl
    · exact hi.callsBefore x hx q op (hcall' h)
    · exact (List.getElem?_eq_some_iff.1 (hcall' h)).1
  · rcases hlog h with h | ⟨rfl, he⟩
    · obtain ⟨x, hx, he⟩ := hi.returned q who op r h
      exact ⟨x, List.mem_append_left _ hx, he⟩
    · cases he
      exact ⟨_, List.mem_append_right _ (List.mem_singleton_self _), rfl, le_rfl⟩
  · rcases hmem hx with hx | rfl
    · obtain ⟨j, req', c, key, -, hj, -⟩ := hi.inCall x hx fun h => hn
        (Exists.imp (fun _ hq => getElem?_append_of_some _ hq) h)
      exact absurd (hnot hj) nofun
    · exact absurd ⟨w.log.length, List.getElem?_concat_length _ _⟩ hn
  · rcases hmem hx with hx | rfl
    · refine hi.fresh x hx ?_
      rcases hw : x.1.who with _ | j <;> rw [hw] at hm'
      · exact absurd hw (hnoRun x hx)
      · exact hm'
    · exact Bool.false_ne_true hm'
  · rcases hlog he with he | ⟨-, rfl⟩
    · exact hi.whoBound q e j he hwe
    · cases hwe
  · rw [List.map_append]
    refine List.pairwise_append.2 ⟨hi.nodup, List.pairwise_singleton _ _, fun a ha b hb => ?_⟩
    obtain ⟨x, hx, rfl⟩ := List.mem_map.1 ha
    rw [List.mem_singleton.1 hb]
    exact hnoRun x hx
  · rcases hmem hx with hx | rfl
    exacts [hi.closeByRun x hx hcl, rfl]
  · rcases getElem?_concat_cases hy with hy | ⟨rfl, rfl⟩
    · rcases getElem?_concat_cases hx with hx | ⟨rfl, -⟩
      · obtain ⟨h1, h2⟩ := hi.keySerial k k' x y hk hx hy hkey hne
        refine ⟨Exists.imp (fun _ hq => getElem?_append_of_some _ hq) h1, fun q qc op' hq hqc => ?_⟩
        rcases hlog hq with hq | ⟨-, he⟩
        · exact h2 q qc op' hq (hcall' hqc)
        · exact absurd (Event.ret.inj he).1 (hnoRun x (List.getElem?_mem hx))
      · exact absurd hk (by have := (List.getElem?_eq_some_iff.1 hy).1; omega)
    · exact absurd (Op.eq_close_of_key hkey) hne

/-- Goroutine `i` moving between two places outside a backend call, logging only events of its
own that are neither a call nor a return. -/
theorem LinInv.move (hi : LinInv B s w lin) {i : Nat} {req : Request} {pc pc' : HandlerPc}
    (hh : w.handlers[i]? = some ⟨req, pc⟩) (hH : w'.handlers = w.handlers.set i ⟨req, pc'⟩)
    (hpc : ∀ c, pc ≠ .calling c) (hs' : pc' ≠ .start) (hpc' : ∀ c, pc' ≠ .calling c)
    (hC : w'.calls.map Call.answer = w.calls.map Call.answer) {es : List Event}
    (hlog : w'.log = w.log ++ es) (hes : es.all (fun e => !e.isBackend) = true)
    (hwho : ∀ e ∈ es, e.who = some i) (hB : w'.backend = w.backend) (hM : w'.main = w.main) :
    LinInv B s w' lin := by
  have hlen : w'.handlers.length = w.handlers.length := by rw [hH, List.length_set]
  obtain ⟨hk₁, hk₂⟩ := handlers_kept hh hpc hs' hpc'
  refine hi.frame (fun j x hx hp => .inl (hk₁ j x (hH ▸ hx) hp)) (fun j x c hx hp => hH ▸ hk₂ j x c hx hp)
    hlen.ge hC hlog hes (fun e he j hj => ?_) hB (fun hp => hM ▸ hp)
  rw [hlen, ← Option.some.inj ((hwho e he).symm.trans hj)]
  exact (List.getElem?_eq_some_iff.1 hh).1

/-- A step of `Run`. -/
theorem LinInv.run (hi : LinInv B s w lin) (hc : CloseInv w) {faults : Bool} (h : RunStep B faults w w') :
    ∃ lin', LinInv B s w' lin' := by
  obtain ⟨new, hn, hs⟩ := h.handlers_eq
  have hH₁ : ∀ (j : Nat) (x : Handler), w'.handlers[j]? = some x → x.pc = .start ∨ (∃ c, x.pc = .calling c) →
      w.handlers[j]? = some x ∨ (w.handlers.length ≤ j ∧ x.pc = .start) := fun j x hx _ => by
    rw [hn] at hx
    rcases getElem?_append_split hx with ⟨-, hx⟩ | ⟨hj, hx⟩
    exacts [.inl hx, .inr ⟨hj, hs x hx⟩]
  have hH₂ : ∀ (j : Nat) (x : Handler) (c : Nat), w.handlers[j]? = some x → x.pc = .calling c →
      w'.handlers[j]? = some x := fun j x _ hx _ => hn ▸ getElem?_append_of_some new hx
  have hlen : w.handlers.length ≤ w'.handlers.length := by rw [hn, List.length_append]; omega
  have hC : w'.calls.map Call.answer = w.calls.map Call.answer := by rw [h.calls_eq]
  have hM := h.preClose_mono
  cases h with
  | closeCall req hm => exact ⟨lin, hi.closeCall hm⟩
  | closeRet req hm => exact ⟨_, hi.closeRet hc hm⟩
  | _ => first
    | exact ⟨lin, hi.frame hH₁ hH₂ hlen hC rfl rfl (by simp [Event.who]) rfl hM⟩
    | exact ⟨lin, hi.frame hH₁ hH₂ hlen hC (List.append_nil _).symm rfl (by simp) rfl hM⟩

end Steps

section Runs

variable {B : Backend σ} {faults : Bool} {input : Bytes} {s : σ} {w w' : World σ}

theorem linInv_init (input : Bytes) (s : σ) : LinInv B s (World.init input s) [] where
  serial := trivial
  backend := rfl
  sorted := List.Pairwise.nil
  bound := fun x h => absurd h (List.not_mem_nil x)
  called := fun x h => absurd h (List.not_mem_nil x)
  callsBefore := fun x h => absurd h (List.not_mem_nil x)
  returned := fun _ _ _ _ h => nomatch h
  inCall := fun x h => absurd h (List.not_mem_nil x)
  answered := fun _ _ _ _ _ _ h => nomatch h
  noRet := fun _ _ _ h => nomatch h
  logged := fun _ _ _ _ _ h => nomatch h
  fresh := fun x h => absurd h (List.not_mem_nil x)
  startClean := fun _ _ h => nomatch h
  whoBound := fun _ _ _ h => nomatch h
  nodup := List.nodup_nil
  closeByRun := fun x h => absurd h (List.not_mem_nil x)
  leadClean := fun _ _ _ _ _ h => nomatch h
  keySerial := fun _ _ _ _ _ h => nomatch h

/-- One step of the broker keeps the effects a sequential run, extending them by the call that
takes effect in it. -/
theorem linInv_step {lin : List (Effect × Nat)} (hi : LinInv B s w lin) (hF : FlightInv w.handlers w.calls)
    (hc : CloseInv w) (h : Step B faults w w') : ∃ lin', LinInv B s w' lin' := by
  rcases h with h | ⟨i, h⟩
  · exact hi.run hc h
  · cases h with
    | lead req key op hh hf hc => exact ⟨_, hi.lead hF hh hf hc⟩
    | exec req c call key op hh hf hcall ha => exact ⟨_, hi.exec hF hh hf hcall ha⟩
    | ret req c call key op r hh hf hcall ha => exact ⟨_, hi.ret hF hh hf hcall ha⟩
    | finish req c call r hh hcall =>
      exact ⟨_, hi.move hh rfl nofun nofun nofun (answers_set hcall rfl) (List.append_nil _).symm rfl
        (by simp) rfl rfl⟩
    | join _ _ _ _ hh | unknown _ hh | wake _ _ _ _ hh | marshal _ _ _ hh | marshalFail _ _ _ hh
    | lock _ _ _ hh | write _ _ _ hh | writeByte _ _ _ hh | flush _ _ _ hh | writeFail _ _ _ _ hh
    | report _ _ hh => first
      | exact ⟨_, hi.move hh rfl nofun nofun nofun rfl (List.append_nil _).symm rfl (by simp) rfl rfl⟩
      | exact ⟨_, hi.move hh rfl nofun nofun nofun rfl rfl rfl (by simp [Event.who]) rfl rfl⟩

theorem linInv_of_reachable (h : Reachable B faults input s w) : ∃ lin, LinInv B s w lin := by
  induction h with
  | refl => exact ⟨[], linInv_init input s⟩
  | tail hr hs ih =>
    obtain ⟨lin, hi⟩ := ih
    exact linInv_step hi (flightInv_of_reachable hr) (closeInv_of_reachable hr) hs

end Runs

/-! ## Real time -/

section Order

variable {B : Backend σ} {s : σ} {w : World σ} {lin : List (Effect × Nat)}

/-- An effect that has returned took effect no later than its return. -/
theorem LinInv.le_of_ret (hi : LinInv B s w lin) {k q : Nat} {x : Effect × Nat} (hk : lin[k]? = some x)
    (hq : w.log[q]? = some (.ret x.1.who x.1.op x.1.answer)) : x.2 ≤ q := by
  obtain ⟨z, hz, hze, hzq⟩ := hi.returned q _ _ _ hq
  obtain ⟨kz, hkz⟩ := List.mem_iff_getElem?.1 hz
  obtain rfl := index_eq_of_nodup_map hi.nodup hkz hk (congrArg Effect.who hze)
  rw [hkz] at hk
  cases hk
  exact hzq

/-- A call that returned before another was made took effect before it. -/
theorem LinInv.lt_of_ret_call (hi : LinInv B s w lin) {k k' q q' : Nat} {x y : Effect × Nat} {op : Op}
    (hk : lin[k]? = some x) (hk' : lin[k']? = some y)
    (hq : w.log[q]? = some (.ret x.1.who x.1.op x.1.answer)) (hq' : w.log[q']? = some (.call y.1.who op))
    (hlt : q < q') : k < k' := by
  have h1 := hi.le_of_ret hk hq
  have h2 := hi.callsBefore y (List.getElem?_mem hk') q' op hq'
  refine Nat.lt_of_not_le fun hle => ?_
  have := le_of_pairwise hi.sorted hk' hk hle
  omega

end Order

section Runs

variable {B : Backend σ} {faults : Bool} {input : Bytes} {s : σ} {w : World σ}

end Runs

/-- The frame of a put with no blank line before it or before its body. -/
def putFrame (id : Int64) (a o : Bytes) (size : Int64) (body : Bytes) : Frame :=
  ⟨[], id, cmdPut, a, o, size, [], body⟩

/-- A put of the action id `[1]`, then a get of it. -/
def putThenGet : Bytes :=
  encodeFrames [putFrame (Int64.ofInt 1) [1] [2] (Int64.ofInt 1) [7], getFrame (Int64.ofInt 2) [1]]

end GoBuildCache.Broker
