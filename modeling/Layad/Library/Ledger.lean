import Layad.Library.Channel
import Mathlib.Data.List.Nodup
import Mathlib.Tactic.Common

/-!
# A ledger of jobs

What becomes of the jobs that enter a queue, each with a reply slot of its own.  A job
is queued, held by the one consumer, answered, or discarded; `Op` lists the moves.

* `Ledger.Balanced` — the books balance: every accepted job whose slot is empty is in the
  queue or held, once, and nothing else is;
* `Balanced.apply` — every move keeps the books balanced;
* `Balanced.unique_place` — hence every accepted job is in exactly one place.
-/

namespace Channel

/-- Where a job can be. -/
inductive Place (α : Type*) where
  | queued
  | held
  | answered (value : α)
  | discarded

/-- The jobs of one consumer, by key. -/
structure Ledger (κ α : Type*) where
  accepted : List κ
  queued : List κ
  held : List κ
  slot : κ → Slot α

namespace Ledger

variable {κ α : Type*}

/-- The job with this key is at this place. -/
def At (L : Ledger κ α) (k : κ) : Place α → Prop
  | .queued => k ∈ L.queued
  | .held => k ∈ L.held
  | .answered v => L.slot k = .sent v
  | .discarded => L.slot k = .dropped

/-- The jobs that wait or are worked on are exactly the accepted ones without an outcome,
    each once. -/
structure Balanced (L : Ledger κ α) : Prop where
  accepted_nodup : L.accepted.Nodup
  open_nodup : (L.queued ++ L.held).Nodup
  mem_open : ∀ k, k ∈ L.queued ++ L.held ↔ k ∈ L.accepted ∧ L.slot k = .empty
  fresh : ∀ k, k ∉ L.accepted → L.slot k = .empty

/-- The moves of the ledger. -/
inductive Op (κ α : Type*) where
  | accept (k : κ)
  | take
  | answer (k : κ) (value : α)
  | discard (k : κ)
  | flush

/-- When a move is possible: a key enters once, and only a held job is answered or
    discarded on its own. -/
def Enabled (L : Ledger κ α) : Op κ α → Prop
  | .accept k => k ∉ L.accepted
  | .take => L.queued ≠ [] ∧ L.held = []
  | .answer k _ => L.held = [k]
  | .discard k => L.held = [k]
  | .flush => L.held = []

variable [DecidableEq κ]

/-- Carry out a move. -/
def apply (L : Ledger κ α) : Op κ α → Ledger κ α
  | .accept k => { L with accepted := L.accepted ++ [k], queued := L.queued ++ [k] }
  | .take => { L with queued := L.queued.tail, held := L.queued.take 1 }
  | .answer k v => { L with held := [], slot := Function.update L.slot k (.sent v) }
  | .discard k => { L with held := [], slot := Function.update L.slot k .dropped }
  | .flush =>
    { L with queued := [], slot := fun k => if k ∈ L.queued then .dropped else L.slot k }

/-- A new entry keeps the balance. -/
theorem Balanced.accept {L : Ledger κ α} (h : L.Balanced) {k : κ} (hk : k ∉ L.accepted) :
    (L.apply (.accept k)).Balanced := by
  have hopen : k ∉ L.queued ++ L.held := fun hm => hk ((h.mem_open k).mp hm).1
  refine ⟨?_, ?_, ?_, ?_⟩
  · exact List.Nodup.append h.accepted_nodup (List.nodup_singleton k)
      (by simpa [List.disjoint_singleton] using hk)
  · have hperm : ((L.queued ++ [k]) ++ L.held).Perm (k :: (L.queued ++ L.held)) := by
      rw [List.append_assoc]
      exact List.perm_middle
    exact hperm.nodup_iff.mpr (List.nodup_cons.mpr ⟨hopen, h.open_nodup⟩)
  · intro j
    have hj := h.mem_open j
    by_cases he : j = k
    · subst he
      simp [apply, h.fresh j hk]
    · simp only [apply, List.mem_append, List.mem_singleton, he, or_false] at hj ⊢
      exact hj
  · intro j hj
    exact h.fresh j (fun hm => hj (List.mem_append_left _ hm))

/-- Taking from the queue keeps it. -/
theorem Balanced.take {L : Ledger κ α} (h : L.Balanced) (hh : L.held = []) :
    (L.apply .take).Balanced := by
  have hopen := h.open_nodup
  have hmem := h.mem_open
  rw [hh, List.append_nil] at hopen hmem
  have hperm : (L.queued.tail ++ L.queued.take 1).Perm L.queued := by
    rw [← List.drop_one]
    exact List.perm_append_comm.trans (List.Perm.of_eq (List.take_append_drop 1 L.queued))
  refine ⟨h.accepted_nodup, hperm.nodup_iff.mpr hopen, ?_, h.fresh⟩
  intro k
  exact hperm.mem_iff.trans (hmem k)

/-- Resolving the held job's slot, with a value or without, keeps the books balanced. -/
theorem Balanced.resolve {L : Ledger κ α} (h : L.Balanced) {k : κ} (hh : L.held = [k])
    {r : Slot α} (hr : r ≠ .empty) :
    ({ L with held := [], slot := Function.update L.slot k r } : Ledger κ α).Balanced := by
  have hopen := h.open_nodup
  have hmem := h.mem_open
  rw [hh] at hopen hmem
  have hk : k ∉ L.queued := fun hq => by
    exact (List.disjoint_of_nodup_append hopen) hq (List.mem_singleton.mpr rfl)
  have hacc : k ∈ L.accepted := ((hmem k).mp (by simp)).1
  refine ⟨h.accepted_nodup, ?_, ?_, ?_⟩
  · simpa using (List.nodup_append.mp hopen).1
  · intro j
    by_cases he : j = k
    · subst he
      simp [hk, hr]
    · have hj := hmem j
      simp only [List.mem_append, List.mem_singleton, he, or_false] at hj
      simpa [Function.update_of_ne he] using hj
  · intro j hj
    have he : j ≠ k := fun e => hj (e ▸ hacc)
    simpa [Function.update_of_ne he] using h.fresh j hj

/-- Discarding the queue keeps it. -/
theorem Balanced.flush {L : Ledger κ α} (h : L.Balanced) (hh : L.held = []) :
    (L.apply .flush).Balanced := by
  have hmem := h.mem_open
  rw [hh, List.append_nil] at hmem
  refine ⟨h.accepted_nodup, ?_, ?_, ?_⟩
  · simp [apply, hh]
  · intro k
    by_cases hk : k ∈ L.queued
    · simp [apply, hh, hk]
    · have : ¬ (k ∈ L.accepted ∧ L.slot k = .empty) := fun hc => hk ((hmem k).mpr hc)
      simpa [apply, hh, hk] using this
  · intro k hk
    have hq : k ∉ L.queued := fun hq => hk ((hmem k).mp hq).1
    simpa [apply, hq] using h.fresh k hk

/-- **Every move keeps the books balanced.** -/
theorem Balanced.apply {L : Ledger κ α} (h : L.Balanced) {op : Op κ α} (he : L.Enabled op) :
    (L.apply op).Balanced := by
  cases op with
  | accept k => exact h.accept he
  | take => exact h.take he.2
  | answer k v => exact h.resolve he (by simp)
  | discard k => exact h.resolve he (by simp)
  | flush => exact h.flush he

/-- A job with an outcome keeps it. -/
theorem Balanced.slot_stable {L : Ledger κ α} (h : L.Balanced) {op : Op κ α} (he : L.Enabled op)
    {k : κ} (hk : L.slot k ≠ .empty) : (L.apply op).slot k = L.slot k := by
  have hopen : k ∉ L.queued ++ L.held := fun hm => hk ((h.mem_open k).mp hm).2
  have hheld : ∀ j, L.held = [j] → k ≠ j := by
    rintro j hj rfl
    exact hopen (List.mem_append_right _ (by simp [hj]))
  cases op with
  | accept j => rfl
  | take => rfl
  | answer j v => exact Function.update_of_ne (hheld j he) _ _
  | discard j => exact Function.update_of_ne (hheld j he) _ _
  | flush => exact if_neg (fun hq => hopen (List.mem_append_left _ hq))

omit [DecidableEq κ] in
/-- **Conservation.** In a balanced ledger every accepted job is in exactly one place. -/
theorem Balanced.unique_place {L : Ledger κ α} (h : L.Balanced) {k : κ} (hk : k ∈ L.accepted) :
    ∃! p, L.At k p := by
  have hopen := h.mem_open k
  simp only [hk, true_and, List.mem_append] at hopen
  have hdisj : k ∈ L.queued → k ∈ L.held → False :=
    fun hq hl => List.disjoint_of_nodup_append h.open_nodup hq hl
  cases hs : L.slot k with
  | empty =>
    rcases hopen.mpr hs with hq | hl
    · refine ⟨.queued, hq, ?_⟩
      intro p hp
      cases p <;> simp_all [At]
    · refine ⟨.held, hl, ?_⟩
      intro p hp
      cases p <;> simp_all [At]
  | sent v =>
    refine ⟨.answered v, hs, ?_⟩
    intro p hp
    cases p <;> simp_all [At]
  | dropped =>
    refine ⟨.discarded, hs, ?_⟩
    intro p hp
    cases p <;> simp_all [At]

end Ledger

end Channel
