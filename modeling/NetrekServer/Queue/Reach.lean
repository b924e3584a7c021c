/-
Leaving and purging preserve the invariant of the wait queues, so that it holds in every memory
reached from `queues_init`; there no redundant test of `queue_update` or `queues_purge` is met.
-/
import NetrekServer.Queue.Invariant
import NetrekServer.Lib.Run

namespace Netrek.Queue

open Netrek.Lib

/-! ## Leaving -/

/-- What unlinking and clearing the entry `i` of the queue `q` has stored. -/
structure Unlinked (q i : Nat) (m m' : QMem) : Prop where
  queues : ∀ q', q' ≠ q → m'.queues q' = m.queues q'
  first : (m'.queues q).first = if (m.waiting i).previous = -1 then (m.waiting i).next else (m.queues q).first
  last : (m'.queues q).last = if (m.waiting i).next = -1 then (m.waiting i).previous else (m.queues q).last
  own : m'.waiting i = vacate (m.waiting i)
  others : ∀ j, j ≠ i → m'.waiting j =
    { m.waiting j with
      next := if (m.waiting i).previous ≠ -1 ∧ j = (m.waiting i).previous.toNat then (m.waiting i).next
        else (m.waiting j).next
      previous := if (m.waiting i).next ≠ -1 ∧ j = (m.waiting i).next.toNat then (m.waiting i).previous
        else (m.waiting j).previous }

/-- An entry that is not its own neighbour is unlinked, and its neighbours are joined. -/
theorem unlink_spec (m : QMem) (q i : Nat) (hp : (m.waiting i).previous = -1 ∨ (m.waiting i).previous.toNat ≠ i)
    (hn : (m.waiting i).next = -1 ∨ (m.waiting i).next.toNat ≠ i) :
    Unlinked q i m ((unlink m q i).modifyWaiting i vacate) := by
  unfold unlink
  by_cases hp' : (m.waiting i).previous = -1 <;> by_cases hn' : (m.waiting i).next = -1
  · constructor <;> simp +contextual [QMem.modifyQueue, QMem.modifyWaiting, hp', hn']
  · replace hn := hn.resolve_left hn'
    constructor <;> simp +contextual [QMem.modifyQueue, QMem.modifyWaiting, hp', hn']
    case own => simp [hn.symm]
    case others =>
      intro j hj
      by_cases hl : j = (m.waiting i).next.toNat <;> simp [hl]
  · replace hp := hp.resolve_left hp'
    constructor <;> simp +contextual [QMem.modifyQueue, QMem.modifyWaiting, hp', hn']
    case own => simp [hp.symm]
    case others =>
      intro j hj
      by_cases hl : j = (m.waiting i).previous.toNat <;> simp [hl]
  · replace hn := hn.resolve_left hn'
    replace hp := hp.resolve_left hp'
    constructor <;> simp +contextual [QMem.modifyWaiting, hp', hn']
    case own => simp [Function.update_apply, hp.symm, hn.symm]
    case others =>
      intro j hj
      simp only [Function.update_apply]
      split <;> split <;> simp_all

/-- The invariant but for the counts of the queue `q`. -/
structure Unsettled (b : Build) (m : QMem) (L : Nat → List Nat) (q : Nat) : Prop where
  linked : Linked m q (L q)
  length_le : (L q).length ≤ maxWaiting
  queue : ∀ q' < b.maxQueue, q' ≠ q → IsQueue m q' (L q')
  owner : ∀ i < maxWaiting, (m.waiting i).inuse = 1 → ∃ q' < b.maxQueue, i ∈ L q'
  inuse : ∀ i < maxWaiting, (m.waiting i).inuse = 0 ∨ (m.waiting i).inuse = 1
  free : ∀ i < maxWaiting, (m.waiting i).inuse = 0 → (m.waiting i).previous = -1
  mynum : ∀ i < maxWaiting, (m.waiting i).mynum = i

theorem QInv.unsettled {b : Build} {m : QMem} {L : Nat → List Nat} (h : QInv b m L) {q : Nat} (hq : q < b.maxQueue) :
    Unsettled b m L q :=
  ⟨(h.queue q hq).linked, h.length_le hq, fun q' hq' _ => h.queue q' hq', h.owner, h.inuse, h.free, h.mynum⟩

/-- Renumbering settles the counts. -/
theorem Unsettled.queueUpdate {b : Build} {m : QMem} {L : Nat → List Nat} {q : Nat} (h : Unsettled b m L q)
    (hq : q < b.maxQueue) : QInv b (queueUpdate b m q).1 L := by
  obtain ⟨hQ, hqs, hw, hl⟩ := queueUpdate_spec hq h.linked h.length_le
  -- nothing but a count is changed
  have hall : ∀ i, ∃ c, (Queue.queueUpdate b m q).1.waiting i = { m.waiting i with count := c } := fun i => by
    by_cases hi : i ∈ L q
    · exact hl i hi
    · exact ⟨(m.waiting i).count, hw i hi⟩
  refine ⟨fun q' hq' => ?_, fun i hi hu => ?_, fun i hi => ?_, fun i hi hu => ?_, fun i hi => ?_⟩
  · by_cases hne : q' = q
    · subst hne; exact hQ
    · refine (h.queue q' hq' hne).frame (hqs q' hne) fun i hi => hw i fun hi' => hne ?_
      have h1 := ((h.queue q' hq' hne).members i hi).2.2.2
      have h2 := (h.linked.members i hi').2.2.2
      omega
  · obtain ⟨c, hc⟩ := hall i
    exact h.owner i hi (by rw [hc] at hu; exact hu)
  · obtain ⟨c, hc⟩ := hall i
    rw [hc]; exact h.inuse i hi
  · obtain ⟨c, hc⟩ := hall i
    rw [hc] at hu ⊢; exact h.free i hi hu
  · obtain ⟨c, hc⟩ := hall i
    rw [hc]; exact h.mynum i hi

/-- `queue_update` at any number keeps the invariant. -/
theorem queueUpdate_inv {b : Build} {m : QMem} {L : Nat → List Nat} (h : QInv b m L) (wQueue : Int) :
    QInv b (queueUpdate b m wQueue).1 L := by
  by_cases hr : wQueue < 0 ∨ (b.maxQueue : Int) ≤ wQueue
  · unfold queueUpdate
    rw [if_pos hr]
    exact h.error _
  · obtain ⟨q, rfl⟩ : ∃ q : Nat, wQueue = q := ⟨wQueue.toNat, by omega⟩
    exact (h.unsettled (by omega)).queueUpdate (by omega)

/-- Unlinking the entry `i` takes it out of its queue. -/
theorem QInv.unlink {b : Build} {m : QMem} {L : Nat → List Nat} (h : QInv b m L) {q i : Nat} {x y : List Nat}
    (hq : q < b.maxQueue) (hL : L q = x ++ i :: y) :
    Unsettled b ((Queue.unlink m q i).modifyWaiting i vacate) (Function.update L q (x ++ y)) q := by
  have hQ := h.queue q hq
  have hd := hQ.dlist
  rw [hL] at hd
  have hmem : ∀ j ∈ x ++ y, j ∈ L q := fun j hj => by
    rw [hL]
    rcases List.mem_append.1 hj with hj | hj <;> simp [hj]
  have hnd := hd.nodup
  have hix : i ∉ x ++ y := by
    intro hi
    rw [List.nodup_append] at hnd
    rcases List.mem_append.1 hi with hi | hi
    · exact hnd.2.2 i hi i (List.mem_cons_self ..) rfl
    · exact (List.nodup_cons.1 hnd.2.1).1 hi
  have hi := hQ.members i (by rw [hL]; simp)
  -- the links of `i` as entries of the queue
  have hprev : ∀ j, (m.waiting i).previous ≠ -1 ∧ j = (m.waiting i).previous.toNat ↔ x.getLast? = some j := fun j => by
    rw [hd.prev_eq]
    cases x.getLast? <;> simp [ptr, eq_comm]
  have hnext : ∀ j, (m.waiting i).next ≠ -1 ∧ j = (m.waiting i).next.toNat ↔ y.head? = some j := fun j => by
    rw [hd.next_eq]
    cases y.head? <;> simp [ptr, eq_comm]
  have hx : (m.waiting i).previous = -1 ↔ x = [] := by
    rw [hd.prev_eq]
    rcases List.eq_nil_or_concat x with hn | ⟨l, k, hk⟩ <;> simp [*, ptr]
  have hy : (m.waiting i).next = -1 ↔ y = [] := by
    rw [hd.next_eq]
    cases y <;> simp [ptr]
  have hU := unlink_spec m q i
    (Classical.or_iff_not_imp_left.2 fun hne he => hix (List.mem_append_left _
      (List.mem_of_getLast? ((hprev i).1 ⟨hne, he.symm⟩))))
    (Classical.or_iff_not_imp_left.2 fun hne he => hix (List.mem_append_right _
      (List.mem_of_head? ((hnext i).1 ⟨hne, he.symm⟩))))
  -- where the links of the others go now
  have hoth : ∀ j, j ≠ i → ((Queue.unlink m q i).modifyWaiting i vacate).waiting j =
      { m.waiting j with
        next := if x.getLast? = some j then (m.waiting i).next else (m.waiting j).next
        previous := if y.head? = some j then (m.waiting i).previous else (m.waiting j).previous } := fun j hj => by
    rw [hU.others j hj]
    simp only [hprev, hnext]
  generalize (Queue.unlink m q i).modifyWaiting i vacate = m' at hU hoth ⊢
  have hne : ∀ j ∈ x ++ y, j ≠ i := by
    rintro j hj rfl
    exact hix hj
  refine ⟨?_, ?_, fun q' hq' hqq => ?_, fun j hj hju => ?_, fun j hj => ?_, fun j hj hju => ?_, fun j hj => ?_⟩
  · rw [Function.update_self]
    refine ⟨hd.erase ?_ ?_ (fun j hj => ?_) fun j hj => ?_, fun j hj => ?_⟩
    · rw [hU.first]; simp only [hx]
    · rw [hU.last]; simp only [hy]
    · rw [hoth j (hne j hj)]
    · rw [hoth j (hne j hj)]
    · rw [hoth j (hne j hj)]
      exact hQ.members j (hmem j hj)
  · rw [Function.update_self]
    have hle := h.length_le hq
    rw [hL] at hle
    simp only [List.length_append, List.length_cons] at hle ⊢
    omega
  · rw [Function.update_of_ne hqq]
    refine (h.queue q' hq').frame (hU.queues q' hqq) fun j hj => ?_
    have hjq : j ∉ L q := fun hj' => hqq (h.disjoint hq' hq hj hj')
    rw [hoth j (by rintro rfl; exact hjq (by rw [hL]; simp)), if_neg, if_neg]
    · exact fun hl => hjq (hmem j (List.mem_append_left _ (List.mem_of_getLast? hl)))
    · exact fun hl => hjq (hmem j (List.mem_append_right _ (List.mem_of_head? hl)))
  -- an entry in use is on its queue still
  · have hji : j ≠ i := by
      rintro rfl
      rw [hU.own] at hju
      simp [vacate] at hju
    rw [hoth j hji] at hju
    obtain ⟨q', hq', hm⟩ := h.owner j hj hju
    refine ⟨q', hq', ?_⟩
    by_cases hqq : q' = q
    · subst hqq
      rw [Function.update_self]
      rw [hL] at hm
      simpa [hji] using hm
    · rw [Function.update_of_ne hqq]; exact hm
  · by_cases hji : j = i
    · rw [hji, hU.own]; exact .inl rfl
    · rw [hoth j hji]; exact h.inuse j hj
  · by_cases hji : j = i
    · rw [hji, hU.own]; rfl
    · rw [hoth j hji] at hju ⊢
      -- a free entry is on no queue, so that it is not the one after `i`
      have hnl : y.head? ≠ some j := fun hl => by
        have hm := (hQ.members j (hmem j (List.mem_append_right _ (List.mem_of_head? hl)))).2.1
        simp only at hju
        omega
      simp only [if_neg hnl]
      exact h.free j hj hju
  · by_cases hji : j = i
    · rw [hji, hU.own]; exact h.mynum i hi.1
    · rw [hoth j hji]; exact h.mynum j hj

/-- An entry in use that leaves is taken out of its queue, and the other queues are as before. -/
theorem queueExit_spec {b : Build} {m : QMem} {L : Nat → List Nat} (h : QInv b m L) {q i : Nat} {x y : List Nat}
    (hq : q < b.maxQueue) (hL : L q = x ++ i :: y) :
    QInv b (queueExit b m i).1 (Function.update L q (x ++ y)) ∧ (queueExit b m i).2 = 1 := by
  have hwq : (m.waiting i).wQueue = q := ((h.queue q hq).members i (by rw [hL]; simp)).2.2.2
  have heq : queueExit b m i = ((queueUpdate b ((unlink m q i).modifyWaiting i vacate) q).1, 1) := by
    unfold queueExit
    rw [hwq, if_neg (by omega)]
    rfl
  rw [heq]
  exact ⟨(h.unlink hq hL).queueUpdate hq, rfl⟩

theorem queueExit_inv {b : Build} {m : QMem} {L : Nat → List Nat} (h : QInv b m L) {i : Nat} (hi : i < maxWaiting)
    (hu : (m.waiting i).inuse ≠ 0) : ∃ L', QInv b (queueExit b m i).1 L' := by
  obtain ⟨q, hq, hm⟩ := h.owner i hi ((h.inuse i hi).resolve_left hu)
  obtain ⟨x, y, hL⟩ := List.append_of_mem hm
  exact ⟨_, (queueExit_spec h hq hL).1⟩

/-! ## Purging -/

/-- Purging one entry takes it out of its queue when its process is gone, and changes no list
otherwise. -/
theorem purgeEntry_spec {b : Build} {m : QMem} {L : Nat → List Nat} (kill : Int → KillResult) (h : QInv b m L)
    {q i : Nat} {x y : List Nat} (hq : q < b.maxQueue) (hL : L q = x ++ i :: y) :
    ∃ L', QInv b (purgeEntry b kill m (m.waiting i)) L' ∧ (∀ q', q' ≠ q → L' q' = L q') ∧
      (L' q = x ++ i :: y ∨ L' q = x ++ y) := by
  have hi := ((h.queue q hq).members i (by rw [hL]; simp)).1
  unfold purgeEntry
  cases kill (m.waiting i).process with
  | ok => exact ⟨L, h, fun _ _ => rfl, .inl hL⟩
  | esrch =>
    rw [h.mynum i hi]
    refine ⟨_, (queueExit_spec (h.error "queues_purge: removing dead waitQ player") hq hL).1, fun q' hq' => ?_, .inr ?_⟩
    · exact Function.update_of_ne hq' _ _
    · exact Function.update_self ..
  | einval => exact ⟨L, h.error _, fun _ _ => rfl, .inl hL⟩
  | eperm => exact ⟨L, h.error _, fun _ _ => rfl, .inl hL⟩
  | other e => exact ⟨L, h.error _, fun _ _ => rfl, .inl hL⟩

/-- Started at the first of the last entries `l` of a queue, the loop counts each of them once and
goes on to the next queue. -/
theorem purgeLoop_spec {b : Build} (kill : Int → KillResult) {q : Nat} (hq : q < b.maxQueue) :
    ∀ (l x : List Nat) (m : QMem) (L : Nat → List Nat) (next : Int) (killcount : Nat),
      QInv b m L → L q = x ++ l → next = ptr l.head? → killcount + l.length ≤ maxWaiting →
      ∃ L', QInv b (purgeLoop b kill m next killcount).1 L' ∧ (∀ q', q' ≠ q → L' q' = L q') ∧
        (purgeLoop b kill m next killcount).2 = (killcount + l.length, false)
  | [], _, m, L, next, killcount, h, _, hn, _ => by
    have hn : next = -1 := hn
    unfold purgeLoop
    rw [if_pos hn]
    exact ⟨L, h, fun _ _ => rfl, rfl⟩
  | i :: l, x, m, L, next, killcount, h, hL, hn, hle => by
    have hi := (h.queue q hq).members i (by rw [hL]; simp)
    have hcur : next.toNat = i := by rw [hn]; simp [ptr]
    have hlt : ¬ maxWaiting ≤ killcount := by simp only [List.length_cons] at hle; omega
    have hloop : purgeLoop b kill m next killcount =
        purgeLoop b kill (purgeEntry b kill m (m.waiting i)) (m.waiting i).next (killcount + 1) := by
      conv => lhs; unfold purgeLoop
      rw [if_neg (by rw [hn]; simp [ptr]), dif_neg hlt, hcur]
      simp only
      rw [if_neg (by rw [hi.2.1]; decide), if_neg hi.2.2.1]
    have hd := (h.queue q hq).dlist
    rw [hL] at hd
    obtain ⟨L1, h1, hoth, hL1⟩ := purgeEntry_spec kill h hq hL
    obtain ⟨x', hx'⟩ : ∃ x', L1 q = x' ++ l := by
      rcases hL1 with he | he
      · exact ⟨x ++ [i], by rw [he]; simp⟩
      · exact ⟨x, he⟩
    obtain ⟨L', h', hoth', hr⟩ := purgeLoop_spec kill hq l x' _ L1 (m.waiting i).next (killcount + 1) h1 hx' hd.next_eq
      (by simp only [List.length_cons] at hle; omega)
    rw [hloop]
    refine ⟨L', h', fun q' hq' => (hoth' q' hq').trans (hoth q' hq'), ?_⟩
    rw [hr]
    simp only [List.length_cons, Prod.mk.injEq, and_true]
    omega

theorem clampFree_inv {b : Build} {m : QMem} {L : Nat → List Nat} (h : QInv b m L) (q : Nat) :
    QInv b (clampFree m q) L := by
  unfold clampFree
  split
  · refine ⟨fun q' hq' => ?_, h.owner, h.inuse, h.free, h.mynum⟩
    have hQ := h.queue q' hq'
    by_cases hqq : q' = q
    · subst hqq
      refine ⟨?_, hQ.members, ?_, hQ.counts⟩
      · simpa [QMem.modifyQueue, QMem.error] using hQ.dlist
      · simpa [QMem.modifyQueue, QMem.error] using hQ.count
    · exact hQ.frame (by simp [QMem.modifyQueue, QMem.error, hqq]) fun _ _ => rfl
  · exact h

/-- The queues listed are purged one after another, as long as the kill count suffices. -/
theorem purgeQueues_spec {b : Build} (kill : Int → KillResult) :
    ∀ (qs : List Nat) (m : QMem) (L : Nat → List Nat) (killcount : Nat), QInv b m L → qs.Nodup →
      (∀ q ∈ qs, q < b.maxQueue) → killcount + (qs.flatMap L).length ≤ maxWaiting →
      ∃ L', QInv b (purgeQueues b kill m killcount qs).1 L' ∧ (purgeQueues b kill m killcount qs).2 = 1
  | [], _, L, _, h, _, _, _ => ⟨L, h, rfl⟩
  | q :: qs, m, L, killcount, h, hnd, hlt, hle => by
    have hq := hlt q (List.mem_cons_self ..)
    rw [List.flatMap_cons, List.length_append] at hle
    obtain ⟨L1, h1, hoth, hr⟩ := purgeLoop_spec kill hq (L q) [] m L (m.queues q).first killcount h rfl
      (h.queue q hq).dlist.fwd.head (by omega)
    have hqs : ∀ q' ∈ qs, L1 q' = L q' := fun q' hq' =>
      hoth q' (by rintro rfl; exact (List.nodup_cons.1 hnd).1 hq')
    have hflat : qs.flatMap L1 = qs.flatMap L := List.flatMap_congr hqs
    obtain ⟨L', h', hr'⟩ := purgeQueues_spec kill qs _ L1 (killcount + (L q).length) (clampFree_inv h1 q)
      hnd.of_cons (fun q' hq' => hlt q' (List.mem_cons_of_mem _ hq')) (by rw [hflat]; omega)
    refine ⟨L', ?_⟩
    unfold purgeQueues
    generalize purgeLoop b kill m (m.queues q).first killcount = r at h1 hr h' hr'
    obtain ⟨m1, n, left⟩ := r
    simp only [Prod.mk.injEq] at hr
    obtain ⟨rfl, rfl⟩ := hr
    exact ⟨h', hr'⟩

/-- The queues together hold no more entries than the array has. -/
theorem QInv.total_le {b : Build} {m : QMem} {L : Nat → List Nat} (h : QInv b m L) :
    ((List.range b.maxQueue).flatMap L).length ≤ maxWaiting := by
  have hnd : ((List.range b.maxQueue).flatMap L).Nodup := by
    refine List.nodup_flatMap.2 ⟨fun q hq => (h.queue q (List.mem_range.1 hq)).dlist.nodup, ?_⟩
    refine (List.nodup_range (n := b.maxQueue)).imp_of_mem fun {q q'} hq hq' hne => ?_
    intro i hi hi'
    exact hne (h.disjoint (List.mem_range.1 hq) (List.mem_range.1 hq') hi hi')
  have hsub : (List.range b.maxQueue).flatMap L ⊆ List.range maxWaiting := fun i hi => by
    obtain ⟨q, hq, hm⟩ := List.mem_flatMap.1 hi
    exact List.mem_range.2 ((h.queue q (List.mem_range.1 hq)).members i hm).1
  simpa using (List.subperm_of_subset hnd hsub).length_le

/-- Whatever `kill` reports, a purge keeps the invariant and reaches its end. -/
theorem queuesPurge_inv {b : Build} {m : QMem} {L : Nat → List Nat} (h : QInv b m L) (kill : Int → KillResult) :
    ∃ L', QInv b (queuesPurge b kill m).1 L' ∧ (queuesPurge b kill m).2 = 1 :=
  purgeQueues_spec kill _ m L 0 h List.nodup_range (fun _ hq => List.mem_range.1 hq) (by simpa using h.total_le)

/-! ## Runs -/

/-- A call of one of the queue functions, run to completion. -/
inductive Op
  | add (c : Client) (wQueue : Nat)
  | exit (waitindex : Nat)
  | update (wQueue : Int)
  | purge (kill : Int → KillResult)

/-- A process joins a queue there is, and only an entry in use leaves. -/
def Op.ok (b : Build) (m : QMem) : Op → Prop
  | .add _ q => q < b.maxQueue
  | .exit i => i < maxWaiting ∧ (m.waiting i).inuse ≠ 0
  | .update _ => True
  | .purge _ => True

def step (b : Build) (m : QMem) : Op → QMem
  | .add c q => (queueAdd m c q).1
  | .exit i => (queueExit b m i).1
  | .update q => (queueUpdate b m q).1
  | .purge kill => (queuesPurge b kill m).1

theorem step_inv (b : Build) (m : QMem) (op : Op) (hop : op.ok b m) (h : ∃ L, QInv b m L) :
    ∃ L, QInv b (step b m op) L := by
  obtain ⟨L, h⟩ := h
  cases op with
  | add c q => exact queueAdd_inv h hop
  | exit i => exact queueExit_inv h hop.1 hop.2
  | update q => exact ⟨L, queueUpdate_inv h q⟩
  | purge kill =>
    obtain ⟨L', h', -⟩ := queuesPurge_inv h kill
    exact ⟨L', h'⟩

/-- The memories reached from `queues_init` by any calls. -/
def Reached (b : Build) (m0 : QMem) (ops : List Op) (m : QMem) : Prop :=
  Run (Op.ok b) (step b) (queuesInit b m0) ops m

theorem Reached.inv {b : Build} {m0 m : QMem} {ops : List Op} (h : Reached b m0 ops m) : ∃ L, QInv b m L :=
  Run.inv (step_inv b) h ⟨_, queuesInit_inv b m0⟩

/-- In a reached memory no redundant test ends a purge early. -/
theorem Reached.queuesPurge_returns {b : Build} {m0 m : QMem} {ops : List Op} (h : Reached b m0 ops m)
    (kill : Int → KillResult) : (queuesPurge b kill m).2 = 1 := by
  obtain ⟨L, hL⟩ := h.inv
  obtain ⟨L', -, hr⟩ := queuesPurge_inv hL kill
  exact hr

/-- The queue `q` is the list `l` of distinct entries: `next` leads from `first` through them to
`last` and ends, `previous` is its inverse, the entries are in use by a process and name the queue,
their counts are 0, 1, 2, … and the queue's count is their number. -/
structure Threaded (m : QMem) (q : Nat) (l : List Nat) : Prop where
  next : Follows ptr (fun i => (m.waiting i).next) (m.queues q).first l
  last : (m.queues q).last = ptr l.getLast?
  nodup : l.Nodup
  previous : Follows ptr (fun i => (m.waiting i).previous) (m.queues q).last l.reverse
  inverse : ∀ i ∈ l, ∀ j ∈ l, (m.waiting i).next = (j : Int) ↔ (m.waiting j).previous = (i : Int)
  members : ∀ i ∈ l, i < maxWaiting ∧ (m.waiting i).inuse = 1 ∧ (m.waiting i).process ≠ 0 ∧ (m.waiting i).wQueue = q
  count : (m.queues q).count = l.length
  counts : l.map (fun i => (m.waiting i).count) = List.range l.length

/-- Every queue is a list, and each entry in use is on exactly one of them. -/
def WellFormed (b : Build) (m : QMem) : Prop :=
  ∃ L : Nat → List Nat, (∀ q < b.maxQueue, Threaded m q (L q)) ∧
    ∀ i < maxWaiting, (m.waiting i).inuse = 1 → ∃! q, q < b.maxQueue ∧ i ∈ L q

theorem QInv.wellFormed {b : Build} {m : QMem} {L : Nat → List Nat} (h : QInv b m L) : WellFormed b m := by
  refine ⟨L, fun q hq => ?_, fun i hi hu => ?_⟩
  · have hQ := h.queue q hq
    exact ⟨hQ.dlist.fwd, hQ.dlist.last_eq, hQ.dlist.nodup, hQ.dlist.bwd,
      fun i hi j hj => hQ.dlist.next_iff_prev ptr_injective hi hj, hQ.members, hQ.count, hQ.counts⟩
  · obtain ⟨q, hq, hm, -⟩ := h.mem_of_inuse hi hu
    exact ⟨q, ⟨hq, hm⟩, fun q' ⟨hq', hm'⟩ => h.disjoint hq' hq hm' hm⟩

/-- Whatever calls are made after `queues_init`, the queues are well formed. -/
theorem Reached.queues_wellFormed {b : Build} {m0 m : QMem} {ops : List Op} (h : Reached b m0 ops m) : WellFormed b m := by
  obtain ⟨L, hL⟩ := h.inv
  exact hL.wellFormed

/-- Two processes join the pickup queue and the first of them leaves. -/
theorem wellFormed_join_join_leave :
    let b : Build := ⟨false, true, true⟩
    let c : Client := ⟨100, by decide, "10.0.0.1", "localhost", false⟩
    WellFormed b (step b (step b (step b (queuesInit b default) (.add c 0)) (.add c 0)) (.exit 0)) :=
  Reached.queues_wellFormed (.cons (a := .add _ 0) (by unfold Op.ok; decide)
    (.cons (a := .add _ 0) (by unfold Op.ok; decide)
      (.cons (a := .exit 0) (by unfold Op.ok; decide) (.nil _))))

end Netrek.Queue
