import Layad.Library.Ledger
import Layad.Worker.Handshake

namespace Layad

open Channel Transition

/-!
# No job is lost or answered twice

The jobs of a handle form a ledger: queued in the channel, held by the supervisor, answered
or discarded.  Every step of the system is a move of that ledger or leaves it as it is
(`Sys.ledger_step`), so its books always balance and every accepted job is in exactly one
place.
-/

/-- The points after the receiver was dropped. -/
def Pc.gone : Pc → Bool
  | .notify | .finished => true
  | _ => false

/-- After a frame the receiver is still there. -/
theorem Pc.gone_of_decided {pc : Pc} (h : pc.decided = true) : pc.gone = false := by
  cases pc <;> simp_all [Pc.decided, Pc.gone]

namespace Sup

variable {cx : Ctx} {sh : Shared} {p p' : Sup} {ev : SupEv} {eff : Eff}

/-- What an operation does to the reply senders the supervisor holds. -/
def Holds (sh : Shared) (p p' : Sup) : Eff → Prop
  | .recv => ∃ job rest, sh.jobs.buffer = job :: rest ∧ p.held = [] ∧ p'.held = [job.reply]
  | .reply key _ | .abandon key => p.held = [key] ∧ p'.held = []
  | .kill keys => keys = p.held ∧ p'.held = [] ∧ (p.held = [] ∨ ∃ key, p.held = [key])
  | .dropReceiver => p.held = [] ∧ p'.held = []
  | _ => p'.held = p.held

/-- Failing the handshake drops no reply sender. -/
theorem held_settleRestart (hpc : p.pc = .idle ∨ p.pc = .wait) (err : StartError)
    (reason : String) :
    (p.settleRestart sh err reason).held = p.held := by
  unfold settleRestart
  rcases hpc with hpc | hpc
  all_goals split <;> simp [held, Pc.held, hpc]

/-- Failing the request in flight drops no reply sender. -/
theorem held_failInflight (hpc : p.pc = .idle ∨ p.pc = .wait) (err : WorkerError)
    (reason : String) :
    (p.failInflight err reason).held = p.held := by
  unfold failInflight
  rcases hpc with hpc | hpc
  all_goals split <;> simp [held, Pc.held, *]

/-- A frame read between requests drops no reply sender. -/
theorem held_onIdleFrame (hpc : p.pc = .idle ∨ p.pc = .wait) (frame : Except String Frame) :
    (p.onIdleFrame cx sh frame).held = p.held := by
  unfold onIdleFrame
  repeat' split
  all_goals first
    | exact held_settleRestart hpc _ _
    | (rcases hpc with hpc | hpc <;> simp [held, Pc.held, hpc])

/-- A frame read for the request in flight drops no reply sender. -/
theorem held_onWaitFrame (hpc : p.pc = .idle ∨ p.pc = .wait) (frame : Except String Frame) :
    (p.onWaitFrame cx sh frame).held = p.held := by
  unfold onWaitFrame onReply
  dsimp only
  repeat' split
  all_goals first
    | exact held_failInflight (p := p) hpc _ _
    | exact held_failInflight (p := p.saw _ .ended) hpc _ _
    | (rcases hpc with hpc | hpc <;> simp [held, Pc.held, *])

/-- The supervisor holds one sender at most. -/
theorem Coherent.held_cases (hc : p.Coherent) : p.held = [] ∨ ∃ key, p.held = [key] := by
  unfold held
  cases hpc : p.pc
  all_goals cases hi : p.inflight
  all_goals simp_all [Coherent, Pc.held]

/-- What a step of the supervisor does to the reply senders, by its operation. -/
theorem step_holds (hc : p.Coherent) (h : p.step cx sh ev = some (p', eff)) :
    Holds sh p p' eff := by
  have hone := hc.held_cases
  revert h
  fun_cases Sup.step cx sh p ev
  all_goals intro h
  all_goals simp only [Option.some.injEq, Prod.mk.injEq, reduceCtorEq] at h
  all_goals obtain ⟨rfl, rfl⟩ := h
  all_goals try (simp_all [Holds, held, Pc.held, Coherent]; done)
  all_goals try
    rename p.pc = _ => hpc
    first
      | exact held_settleRestart (by simp [hpc]) _ _
      | exact held_failInflight (by simp [hpc]) _ _
  -- a read
  all_goals try
    rename p.read cx _ = some _ => hr
    obtain ⟨buf, avail, rfl⟩ := read_eq hr
    rename p.pc = _ => hpc
    first
      | rfl
      | exact held_onIdleFrame (p := { p with buf, avail }) (by simp [hpc]) _
      | exact held_onWaitFrame (p := { p with buf, avail }) (by simp [hpc]) _
  -- the end of `shutdown_child`
  all_goals try
    rename Option String => reason
    cases reason <;> simp_all [Holds, held, Pc.held, afterReap]
  -- what depends on the state found
  all_goals split <;> simp_all [Holds, held, Pc.held, Coherent]

/-! ### A supervisor that never served -/

/-- No ready frame was accepted, and no session decided on an outcome. -/
def Unserved (pending : Bool) (p : Sup) : Prop :=
  p.outcome = none ∧
    ((pending = true ∧ early p.pc = true) ∨ (∃ err, p.pc = .spawnSettle err) ∨
      p.pc.ending = true)

/-- A supervisor that has not served writes no `Ready`. -/
theorem step_unserved (hp : p.Staged sh.ready.isPending) (hc : p.Coherent)
    (h : p.step cx sh ev = some (p', eff)) (hu : p'.Unserved (sh.apply eff).ready.isPending) :
    p.Unserved sh.ready.isPending ∧
      ((sh.apply eff).state = sh.state ∨ ∃ reason, (sh.apply eff).state = .failed reason) := by
  have ho : p.outcome = none := by
    by_contra hne
    obtain ⟨o, ho⟩ := Option.ne_none_iff_exists'.mp hne
    exact absurd hu.1 (by simp [(step_settled hc ho h).1])
  have hl : p.pc.leaving = false := hc.not_leaving ho
  have hl' : p'.pc.leaving = false := (hc.step h).not_leaving hu.1
  revert h
  fun_cases Sup.step cx sh p ev
  all_goals intro h
  all_goals simp only [Option.some.injEq, Prod.mk.injEq, reduceCtorEq] at h
  all_goals obtain ⟨rfl, rfl⟩ := h
  all_goals try (simp_all [Pc.leaving]; done)
  all_goals try (simp_all [Shared.apply, Shared.signalChild, Unserved, Staged, Pc.ending]; done)
  -- a read
  all_goals
    rename p.read cx _ = some _ => hr
    obtain ⟨buf, avail, rfl⟩ := read_eq hr
  · exact ⟨hu, Or.inl rfl⟩
  · rename Except String Frame => frame
    rcases @onIdleFrame_pc cx sh { p with buf, avail } frame with hlv | ⟨i, hi⟩
    · simp_all
    · simp_all [Shared.apply, Unserved, Pc.ending]
  · exact ⟨hu, Or.inl rfl⟩
  · rename Except String Frame => frame
    rename p.pc = _ => hpc
    simp only [Staged, hpc] at hp
    rcases @onWaitFrame_pc cx sh { p with buf, avail } frame with hlv | ⟨k, a, ha⟩ | ⟨i, hi⟩
    all_goals simp_all [Shared.apply, Unserved, Pc.ending]

/-! ### The end of the task -/

/-- The session has ended, or the task ends without one. -/
def Over (p : Sup) : Prop := p.outcome.isSome ∨ p.pc.ending = true

/-- What is over stays over. -/
theorem Over.step (hc : p.Coherent) (ho : p.Over) (h : p.step cx sh ev = some (p', eff)) :
    p'.Over := by
  rcases ho with ho | ho
  · obtain ⟨o, ho⟩ := Option.isSome_iff_exists.mp ho
    exact Or.inl (by rw [(step_settled hc ho h).1]; rfl)
  · right
    revert h
    fun_cases Sup.step cx sh p ev
    all_goals intro h
    all_goals simp only [Option.some.injEq, Prod.mk.injEq, reduceCtorEq] at h
    all_goals obtain ⟨rfl, rfl⟩ := h
    all_goals try (simp_all [Pc.ending]; done)
    cases hpc : p.pc <;> simp_all [Pc.ending, killable]

/-- Senders are dropped on the way out only. -/
theorem step_over (hc : p.Coherent) (h : p.step cx sh ev = some (p', eff))
    (he : (∃ key, eff = .abandon key) ∨ (∃ keys, eff = .kill keys) ∨ eff = .dropReceiver) :
    p'.Over := by
  revert h
  fun_cases Sup.step cx sh p ev
  all_goals intro h
  all_goals simp only [Option.some.injEq, Prod.mk.injEq, reduceCtorEq] at h
  all_goals obtain ⟨rfl, rfl⟩ := h
  all_goals try (simp_all [Over, Coherent, Pc.ending]; done)
  all_goals split at he <;> simp_all

/-- The receiver is dropped at one point, and stays dropped. -/
theorem step_gone (h : p.step cx sh ev = some (p', eff)) :
    p'.pc.gone = true ↔ p.pc.gone = true ∨ eff = .dropReceiver := by
  revert h
  fun_cases Sup.step cx sh p ev
  all_goals intro h
  all_goals simp only [Option.some.injEq, Prod.mk.injEq, reduceCtorEq] at h
  all_goals obtain ⟨rfl, rfl⟩ := h
  all_goals try (simp_all [Pc.gone]; done)
  all_goals try
    rename p.read cx _ = some _ => hr
    obtain ⟨buf, avail, rfl⟩ := read_eq hr
  all_goals try (simp; done)
  all_goals try (simp [Pc.gone_of_decided]; simp_all [Pc.gone]; done)
  all_goals try
    rename Option String => reason
    cases reason <;> simp_all [Pc.gone, afterReap]
  -- an operation that depends on the state found
  all_goals try (simp_all [Pc.gone]; split <;> simp; done)
  -- the forced stop
  cases hpc : p.pc <;> simp_all [Pc.gone, killable]

end Sup

/-! ### A handle to replay runs on -/

namespace Replay

/-- The handle of the runs. -/
def demo : Ctx := ⟨config, host⟩

/-- The supervisor goes on where it can only go one way, `n` times. -/
def go (n : Nat) : List Label := List.replicate n (.sup .go)

/-- The worker writes a line, in one chunk. -/
def writes (line : String) : Label := .sup (.read (.pipe (.data (utf8 line ++ [newline]))))

/-- The worker writes the `n`-th of the lines. -/
def emits (n : Nat) : Label := writes ((lines.map Prod.fst)[n]?.getD "")

/-- The supervisor spawns the worker and comes to the idle wait. -/
def boot : List Label := go 1 ++ [.sup (.spawned 7)] ++ go 3

/-- The worker is ready and the supervisor back at the idle wait. -/
def ready : List Label := boot ++ [emits 0] ++ go 5

/-- Call `k` is a prediction that comes to wait for its answer. -/
def predict (k : Nat) : List Label :=
  [.call k (.begin (.predict .null)), .call k .go, .call k .go]

/-- The next job is taken from the queue and its frame written in one piece. -/
def dispatch : List Label := [.sup .recv, .sup .go, .sup (.wrote 44), .sup .go]

end Replay

namespace Sys

variable {cx : Ctx} {s s' : Sys} {l : Label}

/-- The jobs of the handle as a ledger. -/
def ledger (s : Sys) : Ledger Nat Answer where
  accepted := s.sh.jobs.accepted.map Job.reply
  queued := s.sh.jobs.buffer.map Job.reply
  held := s.sup.held
  slot k := (s.sh.replies k).slot

/-- A step of the ledger: a move that is possible, or nothing. -/
def Moves (L L' : Ledger Nat Answer) : Prop := L' = L ∨ ∃ op, L.Enabled op ∧ L' = L.apply op

/-- The books are in order: they balance, and a call that has not sent its job yet has none
    in them. -/
structure Booked (s : Sys) : Prop where
  coherent : s.sup.Coherent
  balanced : s.ledger.Balanced
  fresh : ∀ k, (s.calls k).mayPush = true → k ∉ s.ledger.accepted

/-- Sending on a pending reply channel fills its slot. -/
theorem slot_reply {replies : Nat → Oneshot Answer} {key : Nat}
    (h : (replies key).slot = .empty) (answer : Answer) :
    (fun k => (Function.update replies key ((replies key).send answer) k).slot)
      = Function.update (fun k => (replies k).slot) key (.sent answer) := by
  funext k
  by_cases hk : k = key
  · subst hk
    simp [Oneshot.slot_send_of_pending h]
  · simp [Function.update_of_ne hk]

/-- Updating one slot, spelled as a case split. -/
theorem update_eq_ite (slot : Nat → Slot Answer) (key : Nat) (r : Slot Answer) :
    Function.update slot key r = fun k => if k = key then r else slot k := by
  funext k
  exact Function.update_apply slot key r k

/-- Dropping the pending senders of some reply channels leaves their slots without a value. -/
theorem slot_dropReplies {replies : Nat → Oneshot Answer} {keys : List Nat}
    (h : ∀ k ∈ keys, (replies k).slot = .empty) :
    (fun k => (dropReplies replies keys k).slot)
      = fun k => if k ∈ keys then .dropped else (replies k).slot := by
  funext k
  unfold dropReplies
  split
  · rename_i hk
    exact Oneshot.slot_dropSender_of_pending (h k hk)
  · rfl

/-- **A step of the supervisor is a move of the ledger.** -/
theorem ledger_sup (hb : s.Booked) {ev : SupEv} {p : Sup} {eff : Eff}
    (hp : s.sup.step cx s.sh ev = some (p, eff)) :
    Moves s.ledger (ledger { s with sup := p, sh := s.sh.apply eff }) := by
  have hheld := Sup.step_holds hb.coherent hp
  have hopen : ∀ k, k ∈ s.ledger.queued ++ s.ledger.held → (s.sh.replies k).slot = .empty :=
    fun k hk => ((hb.balanced.mem_open k).mp hk).2
  have hdoes := Sup.step_does hp
  cases eff with
  -- the head of the queue goes to the supervisor
  | recv =>
    obtain ⟨job, rest, hbuf, hp₀, hp₁⟩ := hheld
    refine Or.inr ⟨.take, ⟨by simp [ledger, hbuf], hp₀⟩, ?_⟩
    simp [ledger, Ledger.apply, Shared.apply, Mpsc.pop, hbuf, hp₁]
  -- the job in its hands is answered
  | reply key answer =>
    obtain ⟨hp₀, hp₁⟩ := hheld
    refine Or.inr ⟨.answer key answer, hp₀, ?_⟩
    have hslot : (s.sh.replies key).slot = .empty := hopen key (by simp [ledger, hp₀])
    simp [ledger, Ledger.apply, Shared.apply, hp₁, slot_reply hslot]
  -- or given up
  | abandon key =>
    obtain ⟨hp₀, hp₁⟩ := hheld
    refine Or.inr ⟨.discard key, hp₀, ?_⟩
    have hslot : ∀ k ∈ [key], (s.sh.replies k).slot = .empty :=
      fun k hk => hopen k (by simpa [ledger, hp₀] using Or.inr hk)
    simp [ledger, Ledger.apply, Shared.apply, hp₁, slot_dropReplies hslot, update_eq_ite]
  -- a forced stop drops what it holds, one job at most
  | kill keys =>
    obtain ⟨rfl, hp₁, hone⟩ := hheld
    have hslot : ∀ k ∈ s.sup.held, (s.sh.replies k).slot = .empty :=
      fun k hk => hopen k (List.mem_append_right _ hk)
    rcases hone with hp₀ | ⟨key, hp₀⟩
    · left
      simp [ledger, Shared.apply, hp₁, hp₀, dropReplies]
    · refine Or.inr ⟨.discard key, hp₀, ?_⟩
      rw [hp₀] at hslot
      simp [ledger, Ledger.apply, Shared.apply, hp₀, hp₁, slot_dropReplies hslot, update_eq_ite]
  -- the end of the task drops the queue
  | dropReceiver =>
    obtain ⟨hp₀, hp₁⟩ := hheld
    refine Or.inr ⟨.flush, hp₀, ?_⟩
    have hslot : ∀ k ∈ s.sh.jobs.buffer.map Job.reply, (s.sh.replies k).slot = .empty :=
      fun k hk => hopen k (List.mem_append_left _ hk)
    simp only [ledger, Ledger.apply, Shared.apply, Mpsc.dropReceiver, hp₀, hp₁,
      slot_dropReplies hslot, List.map_nil]
  -- the other operations leave the books alone
  | signal sig =>
    left
    simp only [ledger, Shared.apply, Shared.signalChild, show p.held = s.sup.held from hheld]
  | push | closeReply | closeReady | acquire | release | notifyForceStop | takeDone =>
    exact absurd hdoes id
  | _ =>
    left
    simp only [ledger, Shared.apply, show p.held = s.sup.held from hheld]

/-- A call never resolves a reply channel. -/
theorem slot_of_call {c c' : Call} {key k : Nat} {eff : Eff} (h : Call.Does s.sh key c c' eff) :
    ((s.sh.apply eff).replies k).slot = (s.sh.replies k).slot := by
  cases eff with
  | closeReply j =>
    by_cases hk : k = j
    · subst hk
      simp [Shared.apply]
    · simp [Shared.apply, Function.update_of_ne hk]
  | recv | dropReceiver | reply | abandon | settle | notifyDone | kill | spawn | write | reap
  | signal => exact absurd h id
  | _ => rfl

/-- **A step of a call is a move of the ledger.** -/
theorem ledger_call (hb : s.Booked) {key : Nat} {ev : CallEv} {c : Call} {eff : Eff}
    (hc : (s.calls key).step cx s.sh key ev = some (c, eff)) :
    Moves s.ledger
      (ledger { s with calls := Function.update s.calls key c, sh := s.sh.apply eff }) := by
  have hd := (Call.step_moved hc).does
  cases eff with
  | push job =>
    obtain ⟨rfl, -, hm, -⟩ := hd
    refine Or.inr ⟨.accept job.reply, hb.fresh _ hm, ?_⟩
    simp [ledger, Ledger.apply, Shared.apply, Mpsc.push]
  | closeReply k =>
    left
    unfold ledger
    congr 1
    exact funext fun j => slot_of_call hd
  | recv | dropReceiver | reply | abandon | settle | notifyDone | kill | spawn | write | reap
  | signal => exact absurd hd id
  | _ => exact Or.inl rfl

/-- Every move keeps the books balanced. -/
theorem Moves.balanced {L L' : Ledger Nat Answer} (h : Moves L L') (hb : L.Balanced) :
    L'.Balanced := by
  obtain rfl | ⟨op, he, rfl⟩ := h
  · exact hb
  · exact hb.apply he

/-- Only a call adds a job, and only its own. -/
theorem accepted_of_sup {ev : SupEv} {p : Sup} {eff : Eff}
    (hp : s.sup.step cx s.sh ev = some (p, eff)) :
    (s.sh.apply eff).jobs.accepted = s.sh.jobs.accepted := by
  have hd := Sup.step_does hp
  cases eff <;> simp_all [Sup.Does, Shared.apply, Shared.signalChild, Mpsc.pop, Mpsc.dropReceiver]

/-- A call's step adds at most a job of its own to those accepted. -/
theorem accepted_of_call {c c' : Call} {key : Nat} {eff : Eff} (h : Call.Does s.sh key c c' eff) :
    (s.sh.apply eff).jobs.accepted = s.sh.jobs.accepted ∨
    (∃ params, (s.sh.apply eff).jobs.accepted = s.sh.jobs.accepted ++ [⟨params, key⟩] ∧
      eff = .push ⟨params, key⟩ ∧ c'.mayPush = false) := by
  cases eff with
  | push job =>
    obtain ⟨rfl, -, -, hm, -⟩ := h
    exact Or.inr ⟨job.params, rfl, rfl, hm⟩
  | _ => simp_all [Call.Does, Shared.apply]

/-- The books of a new handle are in order. -/
theorem Booked.init (cx : Ctx) : (Sys.init cx).Booked where
  coherent := Sup.Coherent.init
  balanced := {
    accepted_nodup := List.nodup_nil
    open_nodup := List.nodup_nil
    mem_open := fun k => by simp [ledger, Sys.init, Sup.held, Sup.init, Pc.held]
    fresh := fun k _ => rfl }
  fresh _ _ := by simp [ledger, Sys.init]

/-- **The books are in order in every reachable state.** -/
theorem Booked.reachable (h : (handle cx).Reachable s) : s.Booked := by
  refine Machine.invariant_of_step (Booked.init cx) ?_ h
  intro s l s' hs hstep
  rcases step_cases hstep with
    ⟨ev, p, eff, -, hp, rfl⟩ | ⟨key, ev, c, eff, -, hc, rfl⟩ | ⟨d, -, rfl⟩ | ⟨status, -, rfl⟩
  · refine ⟨hs.coherent.step hp, (ledger_sup hs hp).balanced hs.balanced, ?_⟩
    intro k hk
    simpa only [ledger, accepted_of_sup hp] using hs.fresh k hk
  · have hm := Call.step_moved hc
    refine ⟨hs.coherent, (ledger_call hs hc).balanced hs.balanced, ?_⟩
    intro k hk
    dsimp only at hk
    by_cases he : k = key
    · subst he
      rw [Function.update_self] at hk
      rcases accepted_of_call hm.does with ha | ⟨params, -, -, hno⟩
      · simpa only [ledger, ha] using hs.fresh k (hm.mayPush hk)
      · exact absurd (hno ▸ hk) Bool.false_ne_true
    · rw [Function.update_of_ne he] at hk
      rcases accepted_of_call hm.does with ha | ⟨params, ha, -⟩
      · simpa only [ledger, ha] using hs.fresh k hk
      · have := hs.fresh k hk
        simpa [ledger, ha, he] using this
  · exact ⟨hs.coherent, hs.balanced, hs.fresh⟩
  · exact ⟨hs.coherent, hs.balanced, hs.fresh⟩

/-- A resolved reply channel never changes its value. -/
theorem slot_stable_step (hs : s.Booked) (h : s.step cx l = some s') {k : Nat}
    (hk : (s.sh.replies k).slot ≠ .empty) :
    (s'.sh.replies k).slot = (s.sh.replies k).slot := by
  have hstable : ∀ {L'}, Moves s.ledger L' → L'.slot k = (s.sh.replies k).slot := by
    rintro L' (rfl | ⟨op, he, rfl⟩)
    · rfl
    · exact hs.balanced.slot_stable he hk
  rcases step_cases h with
    ⟨ev, p, eff, -, hp, rfl⟩ | ⟨key, ev, c, eff, -, hc, rfl⟩ | ⟨d, -, rfl⟩ | ⟨status, -, rfl⟩
  · exact hstable (ledger_sup hs hp)
  · exact hstable (ledger_call hs hc)
  · rfl
  · rfl

/-! ### A handle that never served -/

/-- Only a shutdown sends a wake-up job. -/
theorem not_prediction_of_waking {c : Call} (h : c.waking = true) :
    c.isPrediction = false ∧ c ≠ .idle := by
  cases c <;> simp_all

/-- A prediction that is not past its check sends nothing in the next step. -/
theorem unsent_call (hb : s.Booked) {k key : Nat} {ev : CallEv} {c : Call} {eff : Eff}
    (hsend : (s.calls k).sending = false)
    (hun : (s.calls k).isPrediction = true → k ∉ s.ledger.accepted)
    (hc : (s.calls key).step cx s.sh key ev = some (c, eff))
    (hpred : (Function.update s.calls key c k).isPrediction = true) :
    k ∉ (s.sh.apply eff).jobs.accepted.map Job.reply := by
  have hm := Call.step_moved hc
  by_cases he : k = key
  · subst he
    rw [Function.update_self] at hpred
    rcases accepted_of_call hm.does with ha | ⟨params, -, rfl, -⟩
    · rw [ha]
      rcases hm.kind with hidle | hkind
      · exact hb.fresh k (by simp [hidle])
      · exact hun (hkind ▸ hpred)
    · obtain ⟨-, -, -, -, ⟨hold, -⟩ | ⟨hw, -⟩⟩ := hm.does
      · simp [hold] at hsend
      · have hno := not_prediction_of_waking hw
        rcases hm.kind with hidle | hkind
        · exact absurd hidle hno.2
        · rw [hkind, hno.1] at hpred
          cases hpred
  · rw [Function.update_of_ne he] at hpred
    rcases accepted_of_call hm.does with ha | ⟨params, ha, -⟩
    · rw [ha]
      exact hun hpred
    · simpa [ledger, ha, he] using hun hpred

/-- No ready worker, no prediction past its check, no prediction's job: what holds as long as
    the supervisor has not served. -/
structure Unserving (s : Sys) : Prop where
  state : s.sh.state ≠ .ready
  sending : ∀ k, (s.calls k).sending = false
  jobs : ∀ k ∈ s.ledger.accepted, (s.calls k).isPrediction = false

/-- A call's step changes nothing for a handle that has not served. -/
theorem Unserving.call (h : s.Unserving) (hb : s.Booked) {key : Nat} {ev : CallEv} {c : Call}
    {eff : Eff} (hc : (s.calls key).step cx s.sh key ev = some (c, eff)) :
    Unserving { s with calls := Function.update s.calls key c, sh := s.sh.apply eff } := by
  have hm := Call.step_moved hc
  refine ⟨?_, ?_, ?_⟩
  · rcases hm.does.keeps with ⟨state, rfl⟩ | ⟨job, rfl⟩ | ⟨hstate, -⟩
    · rcases hm.does with rfl | ⟨-, reason, -, rfl, -⟩
      all_goals simp [Shared.apply]
    · exact h.state
    · simpa [hstate] using h.state
  · intro k
    by_cases hk : k = key
    · subst hk
      by_contra hs
      exact h.state (hm.sending (by simpa using hs)).1
    · simpa [Function.update_of_ne hk] using h.sending k
  · intro k hk
    dsimp only
    by_cases he : k = key
    · subst he
      rw [Function.update_self]
      -- the call is not idle: its job is in the books, or it is sending it now
      have hold : (s.calls k).isPrediction = false ∧ s.calls k ≠ .idle := by
        rcases accepted_of_call hm.does with ha | ⟨params, -, rfl, -⟩
        · simp only [ledger, ha] at hk
          refine ⟨h.jobs k hk, fun hidle => ?_⟩
          exact hb.fresh k (by simp [hidle]) hk
        · obtain ⟨-, -, -, -, ⟨hs, -⟩ | ⟨hw, -⟩⟩ := hm.does
          · have := h.sending k
            simp [hs] at this
          · exact not_prediction_of_waking hw
      rcases hm.kind with hidle | hkind
      · exact absurd hidle hold.2
      · rw [hkind]
        exact hold.1
    · rw [Function.update_of_ne he]
      refine h.jobs k ?_
      rcases accepted_of_call hm.does with ha | ⟨params, ha, -⟩
      · simpa only [ledger, ha] using hk
      · simpa [ledger, ha, he] using hk

/-- A handle that has not served is `Unserving`. -/
def NeverServed (s : Sys) : Prop := s.sup.Unserved s.sh.ready.isPending → s.Unserving

/-- In every reachable state a handle that has not served is `Unserving`. -/
theorem NeverServed.reachable (h : (handle cx).Reachable s) : s.NeverServed := by
  refine Machine.Reachable.induct ?_ ?_ h
  · intro _
    refine ⟨by simp [handle, Sys.init], fun k => ?_, by simp [ledger, handle, Sys.init]⟩
    simp only [handle, Sys.init]
    split <;> rfl
  · intro s l s' hr hs hstep
    have hh := Handshake.reachable hr
    rcases step_cases hstep with
      ⟨ev, p, eff, -, hp, rfl⟩ | ⟨key, ev, c, eff, -, hc, rfl⟩ | ⟨d, -, rfl⟩ | ⟨status, -, rfl⟩
    · intro hu
      obtain ⟨hu₀, hstate⟩ := Sup.step_unserved hh.staged hh.coherent hp hu
      have hn := hs hu₀
      refine ⟨?_, hn.sending, ?_⟩
      · rcases hstate with hst | ⟨reason, hst⟩
        · simpa [hst] using hn.state
        · simp [hst]
      · simpa only [ledger, accepted_of_sup hp] using hn.jobs
    · intro hu
      simp only [pending_of_call (Call.step_moved hc).does] at hu
      exact (hs hu).call (Booked.reachable hr) hc
    · exact fun hu => ⟨(hs hu).state, (hs hu).sending, (hs hu).jobs⟩
    · exact fun hu => ⟨(hs hu).state, (hs hu).sending, (hs hu).jobs⟩

/-! ### What is left at the end -/

/-- The channel closes with the end of the task, empty, and jobs are discarded only then or
    after the session. -/
structure Closes (s : Sys) : Prop where
  closed : s.sh.jobs.closed = true ↔ s.sup.pc.gone = true
  empty : s.sh.jobs.closed = true → s.sh.jobs.buffer = []
  discarded : ∀ k, (s.sh.replies k).slot = .dropped → s.sup.Over
  awaits : ∀ k params, s.calls k = .predict params .awaiting →
    (⟨params, k⟩ : Job) ∈ s.sh.jobs.accepted

/-- The channel of a new handle is open. -/
theorem Closes.init (cx : Ctx) : (Sys.init cx).Closes where
  closed := by simp [Sys.init, Sup.init, Pc.gone]
  empty := by simp [Sys.init]
  discarded k h := by simp [Sys.init] at h
  awaits k params h := by
    simp only [Sys.init] at h
    split at h <;> cases h

/-- The supervisor closes the channel with the end of its task. -/
theorem Closes.sup (h : s.Closes) (hc : s.sup.Coherent) {ev : SupEv} {p : Sup} {eff : Eff}
    (hp : s.sup.step cx s.sh ev = some (p, eff)) :
    Closes { s with sup := p, sh := s.sh.apply eff } := by
  have hgone := Sup.step_gone hp
  have hd := Sup.step_does hp
  refine ⟨?_, ?_, ?_, ?_⟩
  · have := h.closed
    cases eff <;> simp_all [Sup.Does, Shared.apply, Shared.signalChild, Mpsc.pop, Mpsc.dropReceiver]
  · intro hclosed
    cases eff with
    | dropReceiver => rfl
    | recv =>
      -- a job is received before the receiver is dropped
      have hpc : s.sup.pc.gone = true := h.closed.mp hclosed
      obtain ⟨-, hidle | ⟨detail, hdrain⟩⟩ := hd
      · simp [hidle, Pc.gone] at hpc
      · simp [hdrain, Pc.gone] at hpc
    | push => exact absurd hd id
    | _ => exact h.empty hclosed
  · intro k hk
    by_cases hold : (s.sh.replies k).slot = .dropped
    · exact (h.discarded k hold).step hc hp
    · refine Sup.step_over hc hp ?_
      cases eff with
      | abandon key => exact Or.inl ⟨key, rfl⟩
      | kill keys => exact Or.inr (Or.inl ⟨keys, rfl⟩)
      | dropReceiver => exact Or.inr (Or.inr rfl)
      | reply key answer =>
        refine absurd ?_ hold
        by_cases he : k = key
        · subst he
          simp only [Shared.apply, Function.update_self] at hk
          exact Oneshot.slot_send_eq_dropped hk
        · simpa [Shared.apply, Function.update_of_ne he] using hk
      | closeReply => exact absurd hd id
      | _ => exact absurd hk hold
  · simpa only [accepted_of_sup hp] using h.awaits

/-- A call neither closes the channel nor discards a job. -/
theorem Closes.call (h : s.Closes) {key : Nat} {ev : CallEv} {c : Call} {eff : Eff}
    (hc : (s.calls key).step cx s.sh key ev = some (c, eff)) :
    Closes { s with calls := Function.update s.calls key c, sh := s.sh.apply eff } := by
  have hm := Call.step_moved hc
  have hd := hm.does
  refine ⟨?_, ?_, ?_, ?_⟩
  · rcases hd.keeps with ⟨state, rfl⟩ | ⟨job, rfl⟩ | ⟨-, hjobs⟩
    · exact h.closed
    · exact h.closed
    · simpa [hjobs] using h.closed
  · intro hclosed
    rcases hd.keeps with ⟨state, rfl⟩ | ⟨job, rfl⟩ | ⟨-, hjobs⟩
    · exact h.empty hclosed
    · -- a job is sent to an open channel only
      obtain ⟨-, hopen, -⟩ := hd
      exact absurd hclosed (by simp [Shared.apply, Mpsc.push, hopen])
    · simp only [hjobs] at hclosed ⊢
      exact h.empty hclosed
  · intro k hk
    exact h.discarded k (by rwa [slot_of_call hd] at hk)
  · intro k params hk
    dsimp only at hk
    by_cases he : k = key
    · subst he
      rw [Function.update_self] at hk
      have := hm.awaits params hk
      simp [this, Shared.apply, Mpsc.push]
    · rw [Function.update_of_ne he] at hk
      rcases accepted_of_call hd with ha | ⟨params', ha, -⟩
      · exact ha ▸ h.awaits k params hk
      · exact ha ▸ List.mem_append_left _ (h.awaits k params hk)

/-- In every reachable state the channel is closed just if the receiver was dropped. -/
theorem Closes.reachable (h : (handle cx).Reachable s) : s.Closes := by
  refine Machine.Reachable.induct (Closes.init cx) ?_ h
  intro s l s' hr hs hstep
  have hc := (Handshake.reachable hr).coherent
  rcases step_cases hstep with
    ⟨ev, p, eff, -, hp, rfl⟩ | ⟨key, ev, c, eff, -, hc', rfl⟩ | ⟨d, -, rfl⟩ | ⟨status, -, rfl⟩
  · exact hs.sup hc hp
  · exact hs.call hc'
  · exact ⟨hs.closed, hs.empty, hs.discarded, hs.awaits⟩
  · exact ⟨hs.closed, hs.empty, hs.discarded, hs.awaits⟩

/-- A send finds its job in hand and unresolved. -/
theorem reply_unresolved (hb : s.Booked) {ev : SupEv} {p : Sup} {key : Nat} {answer : Answer}
    (hp : s.sup.step cx s.sh ev = some (p, .reply key answer)) :
    s.ledger.held = [key] ∧ (s.sh.replies key).slot = .empty ∧
      ((s.sh.apply (.reply key answer)).replies key).slot = .sent answer := by
  have hheld : s.sup.held = [key] := (Sup.step_holds hb.coherent hp).1
  have hslot : (s.sh.replies key).slot = .empty :=
    ((hb.balanced.mem_open key).mp (by simp [ledger, hheld])).2
  refine ⟨hheld, hslot, ?_⟩
  simp [Shared.apply, Oneshot.slot_send_of_pending hslot]

/-- When the receiver is gone no sender is held. -/
theorem held_of_gone (hc : s.sup.Coherent) (hg : s.sup.pc.gone = true) : s.sup.held = [] := by
  unfold Pc.gone at hg
  split at hg <;> simp_all [Sup.held, Pc.held, Sup.Coherent]

/-- A prediction that waits when the receiver is gone can return. -/
theorem returns_of_closed (h : (handle cx).Reachable s) (hclosed : s.sh.jobs.closed = true)
    {k : Nat} {params : Json} {pc : PredictPc} (hk : s.calls k = .predict params pc)
    (hpc : pc = .sending ∨ pc = .awaiting) :
    ∃ answer, (s.calls k).step cx s.sh k .go =
        some (.predict params (.leaving (some answer)), .skip) ∧
      ((s.sh.replies k).slot = .sent answer ∨
        (answer = .error .shuttingDown ∧ ((s.sh.replies k).slot = .dropped ∨ pc = .sending))) := by
  have hc := Closes.reachable h
  have hb := Booked.reachable h
  rcases hpc with rfl | rfl
  · refine ⟨.error .shuttingDown, ?_, Or.inr ⟨rfl, Or.inr rfl⟩⟩
    simp [hk, Call.step, Call.predictStep, hclosed]
  · have hacc : k ∈ s.ledger.accepted :=
      List.mem_map.mpr ⟨_, hc.awaits k params hk, rfl⟩
    have hopen : k ∉ s.ledger.queued ++ s.ledger.held := by
      simp [ledger, hc.empty hclosed, held_of_gone hb.coherent (hc.closed.mp hclosed)]
    cases hs : (s.sh.replies k).slot with
    | empty => exact absurd ((hb.balanced.mem_open k).mpr ⟨hacc, hs⟩) hopen
    | sent answer =>
      exact ⟨answer, by simp [hk, Call.step, Call.predictStep, hs], Or.inl rfl⟩
    | dropped =>
      exact ⟨.error .shuttingDown, by simp [hk, Call.step, Call.predictStep, hs],
        Or.inr ⟨rfl, Or.inl rfl⟩⟩

/-- **No job is lost or answered twice.**  In every reachable state each accepted job is in
    exactly one place; an answer is only sent for a job in hand that has none yet, and stays;
    a job is discarded only after the session ended, or when its caller had gone, or, for the
    job of a shutdown, when the task ends without a session; and once the receiver is gone
    nothing is queued or in flight and every waiting prediction can return. -/
theorem jobs_conserved (h : (handle cx).Reachable s) :
    (∀ k ∈ s.ledger.accepted, ∃! place, s.ledger.At k place) ∧
    (∀ ev p key answer, s.sup.step cx s.sh ev = some (p, .reply key answer) →
      s.ledger.held = [key] ∧ (s.sh.replies key).slot = .empty ∧
        ((s.sh.apply (.reply key answer)).replies key).slot = .sent answer) ∧
    (∀ l s' k, s.step cx l = some s' → (s.sh.replies k).slot ≠ .empty →
      (s'.sh.replies k).slot = (s.sh.replies k).slot) ∧
    (∀ k ∈ s.ledger.accepted, s.ledger.At k .discarded →
      s.sup.outcome.isSome ∨ (s.sh.replies k).closed = true ∨
        (s.sup.pc.ending = true ∧ (s.calls k).isPrediction = false)) ∧
    (s.sup.pc = .finished → s.sh.jobs.closed = true) ∧
    (s.sh.jobs.closed = true → s.ledger.queued = [] ∧ s.ledger.held = [] ∧
      ∀ k params pc, s.calls k = .predict params pc → pc = .sending ∨ pc = .awaiting →
        ∃ answer, (s.calls k).step cx s.sh k .go =
            some (.predict params (.leaving (some answer)), .skip) ∧
          ((s.sh.replies k).slot = .sent answer ∨
            (answer = .error .shuttingDown ∧
              ((s.sh.replies k).slot = .dropped ∨ pc = .sending)))) := by
  have hb := Booked.reachable h
  have hc := Closes.reachable h
  refine ⟨fun k hk => hb.balanced.unique_place hk,
    fun ev p key answer hp => reply_unresolved hb hp,
    fun l s' k hs hk => slot_stable_step hb hs hk, ?_, ?_, ?_⟩
  · intro k hk hd
    cases ho : s.sup.outcome with
    | some o => exact Or.inl rfl
    -- without a session: the drop at the end of the task, of wake-up jobs
    | none =>
      rcases hc.discarded k hd with hsome | hend
      · simp [ho] at hsome
      · have hn := NeverServed.reachable h ⟨ho, Or.inr (Or.inr hend)⟩
        exact Or.inr (Or.inr ⟨hend, hn.jobs k hk⟩)
  · intro hpc
    exact hc.closed.mpr (by rw [hpc]; rfl)
  · intro hclosed
    refine ⟨by simp [ledger, hc.empty hclosed], held_of_gone hb.coherent (hc.closed.mp hclosed), ?_⟩
    intro k params pc hk hpc
    exact returns_of_closed h hclosed hk hpc

open Replay in
/-- The result at a run: a prediction has sent its job, which is queued. -/
theorem jobs_conserved_queued :
    ∃ s, (handle demo).Reachable s ∧ s.ledger.accepted = [1] ∧ ∃! place, s.ledger.At 1 place := by
  have hrun : ((handle demo).exec (handle demo).init (ready ++ predict 1)).map
      (fun s => s.ledger.accepted) = some [1] := by decide +kernel
  obtain ⟨s, hs, hv⟩ := Machine.reachable_of_exec hrun
  exact ⟨s, hs, hv, (jobs_conserved hs).1 1 (by simp [hv])⟩

open Replay in
/-- A shutdown before the task starts: its job is discarded, the call still waits, and there
    was no session. -/
theorem wakeUp_discarded_without_session :
    ¬ ∀ (cx : Ctx) (s : Sys), (handle cx).Reachable s → ∀ k ∈ s.ledger.accepted,
      s.ledger.At k .discarded → s.sup.outcome.isSome ∨ (s.sh.replies k).closed = true := by
  intro hall
  have hrun : ((handle demo).exec (handle demo).init
      ([.call 1 (.begin (.shutdown 1000)), .call 1 .go, .call 1 .go] ++ go 2)).map
      (fun s => (s.ledger.accepted, (s.ledger.slot 1).isDropped, s.sup.outcome.isSome,
        (s.sh.replies 1).closed)) = some ([1], true, false, false) := by decide +kernel
  obtain ⟨s, hs, hv⟩ := Machine.reachable_of_exec hrun
  simp only [Prod.mk.injEq] at hv
  obtain ⟨hacc, hdrop, ho, hcl⟩ := hv
  have := hall demo s hs 1 (by simp [hacc]) ((Slot.isDropped_iff _).mp hdrop)
  simp [ho, hcl] at this

end Sys

end Layad
