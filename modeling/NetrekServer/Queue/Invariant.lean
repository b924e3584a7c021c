/-
The representation invariant of the wait queues: `QInv` on the memory and the lists the queues
stand for, preserved by joining, leaving, renumbering and purging.
-/
import NetrekServer.Queue.Basic
import NetrekServer.Lib.DList

namespace Netrek.Queue

open Netrek.Lib

/-! ## Definitions -/

/-- The index that stands for an entry, `-1` for none. -/
def ptr : Option Nat → Int
  | none => -1
  | some i => i

theorem ptr_injective : Function.Injective ptr := by
  intro a b h
  cases a <;> cases b <;> simp only [ptr] at h
  · rfl
  · omega
  · omega
  · exact congrArg some (by omega)

/-- The queue `q` holds exactly the entries `l`, first to last. -/
structure IsQueue (m : QMem) (q : Nat) (l : List Nat) : Prop where
  dlist : DList ptr (fun i => (m.waiting i).next) (fun i => (m.waiting i).previous)
    (m.queues q).first (m.queues q).last l
  members : ∀ i ∈ l, i < maxWaiting ∧ (m.waiting i).inuse = 1 ∧ (m.waiting i).process ≠ 0 ∧ (m.waiting i).wQueue = q
  count : (m.queues q).count = l.length
  counts : l.map (fun i => (m.waiting i).count) = List.range l.length

/-- The queues hold the lists `L`, every entry in use is on one of them, and an entry not in use
is not linked. -/
structure QInv (b : Build) (m : QMem) (L : Nat → List Nat) : Prop where
  queue : ∀ q < b.maxQueue, IsQueue m q (L q)
  owner : ∀ i < maxWaiting, (m.waiting i).inuse = 1 → ∃ q < b.maxQueue, i ∈ L q
  inuse : ∀ i < maxWaiting, (m.waiting i).inuse = 0 ∨ (m.waiting i).inuse = 1
  free : ∀ i < maxWaiting, (m.waiting i).inuse = 0 → (m.waiting i).previous = -1
  mynum : ∀ i < maxWaiting, (m.waiting i).mynum = i

namespace QInv

variable {b : Build} {m : QMem} {L : Nat → List Nat}

/-- Two queues share no entry: an entry records the queue it is on. -/
theorem disjoint (h : QInv b m L) {q q' i : Nat} (hq : q < b.maxQueue) (hq' : q' < b.maxQueue)
    (hi : i ∈ L q) (hi' : i ∈ L q') : q = q' := by
  have h1 := ((h.queue q hq).members i hi).2.2.2
  have h2 := ((h.queue q' hq').members i hi').2.2.2
  omega

theorem length_le (h : QInv b m L) {q : Nat} (hq : q < b.maxQueue) : (L q).length ≤ maxWaiting := by
  have hsub : L q ⊆ List.range maxWaiting := fun i hi =>
    List.mem_range.2 ((h.queue q hq).members i hi).1
  simpa using (List.subperm_of_subset (h.queue q hq).dlist.nodup hsub).length_le

/-- An entry in use knows its queue. -/
theorem mem_of_inuse (h : QInv b m L) {i : Nat} (hi : i < maxWaiting) (hu : (m.waiting i).inuse = 1) :
    ∃ q < b.maxQueue, i ∈ L q ∧ (m.waiting i).wQueue = q := by
  obtain ⟨q, hq, hm⟩ := h.owner i hi hu
  exact ⟨q, hq, hm, ((h.queue q hq).members i hm).2.2.2⟩

end QInv

/-! ## Renumbering -/

/-- `m'` is `m` with the counts of the entries `l` changed. -/
structure Recounted (m m' : QMem) (l : List Nat) : Prop where
  queues : m'.queues = m.queues
  log : m'.log = m.log
  others : ∀ i ∉ l, m'.waiting i = m.waiting i
  own : ∀ i ∈ l, ∃ c, m'.waiting i = { m.waiting i with count := c }

/-- Started at the first of the entries `l`, the loop gives them consecutive counts and stops
after the last one; none of the redundant tests is met. -/
theorem queueUpdateLoop_spec : ∀ (l : List Nat) (m : QMem) (cur : Int) (lcount : Nat),
    Follows ptr (fun i => (m.waiting i).next) cur l → l.Nodup →
    (∀ i ∈ l, (m.waiting i).inuse ≠ 0 ∧ (m.waiting i).process ≠ 0) → lcount + l.length ≤ maxWaiting →
    Recounted m (queueUpdateLoop m cur lcount).1 l ∧
    (queueUpdateLoop m cur lcount).2 = lcount + l.length ∧
    l.map (fun i => ((queueUpdateLoop m cur lcount).1.waiting i).count) = List.range' lcount l.length
  | [], m, cur, lcount, hf, _, _, _ => by
    have hc : cur = -1 := hf
    unfold queueUpdateLoop
    rw [if_pos hc]
    exact ⟨⟨rfl, rfl, fun _ _ => rfl, fun _ hi => by cases hi⟩, rfl, rfl⟩
  | i :: l, m, cur, lcount, hf, hnd, hok, hle => by
    obtain ⟨hc, hf⟩ := hf
    have hil : i ∉ l := (List.nodup_cons.1 hnd).1
    obtain ⟨hu, hp⟩ := hok i (List.mem_cons_self ..)
    have hcur : cur.toNat = i := by rw [hc]; simp [ptr]
    have hlt : ¬ maxWaiting ≤ lcount := by simp only [List.length_cons] at hle; omega
    have hloop : queueUpdateLoop m cur lcount =
        queueUpdateLoop (m.modifyWaiting i fun w => { w with count := lcount }) (m.waiting i).next (lcount + 1) := by
      conv => lhs; unfold queueUpdateLoop
      rw [if_neg (by rw [hc]; simp [ptr]), dif_neg hlt, hcur]
      simp only
      rw [if_neg hu, if_neg hp]
    have hw : ∀ j ∈ l, (m.modifyWaiting i fun w => { w with count := lcount }).waiting j = m.waiting j := by
      intro j hj
      have hji : j ≠ i := by rintro rfl; exact hil hj
      simp [QMem.modifyWaiting, hji]
    obtain ⟨hR, hn, hcs⟩ := queueUpdateLoop_spec l (m.modifyWaiting i fun w => { w with count := lcount })
      (m.waiting i).next (lcount + 1) (hf.congr fun j hj => by rw [hw j hj]) hnd.of_cons
      (fun j hj => by rw [hw j hj]; exact hok j (List.mem_cons_of_mem _ hj))
      (by simp only [List.length_cons] at hle; omega)
    rw [hloop]
    have hi : (queueUpdateLoop (m.modifyWaiting i fun w => { w with count := lcount }) (m.waiting i).next
        (lcount + 1)).1.waiting i = { m.waiting i with count := lcount } := by
      rw [hR.others i hil]; simp [QMem.modifyWaiting]
    refine ⟨⟨hR.queues, hR.log, fun j hj => ?_, fun j hj => ?_⟩, ?_, ?_⟩
    · rw [hR.others j fun h => hj (List.mem_cons_of_mem _ h)]
      have hji : j ≠ i := by rintro rfl; exact hj (List.mem_cons_self ..)
      simp [QMem.modifyWaiting, hji]
    · rcases List.mem_cons.1 hj with rfl | hj
      · exact ⟨lcount, hi⟩
      · obtain ⟨c, hc'⟩ := hR.own j hj
        exact ⟨c, by rw [hc', hw j hj]⟩
    · rw [hn]; simp only [List.length_cons]; omega
    · rw [List.map_cons, hcs, hi, List.length_cons, List.range'_succ]

/-- The entries of a queue but for its counts: what `queue_update` needs and keeps. -/
structure Linked (m : QMem) (q : Nat) (l : List Nat) : Prop where
  dlist : DList ptr (fun i => (m.waiting i).next) (fun i => (m.waiting i).previous)
    (m.queues q).first (m.queues q).last l
  members : ∀ i ∈ l, i < maxWaiting ∧ (m.waiting i).inuse = 1 ∧ (m.waiting i).process ≠ 0 ∧ (m.waiting i).wQueue = q

theorem IsQueue.linked {m : QMem} {q : Nat} {l : List Nat} (h : IsQueue m q l) : Linked m q l :=
  ⟨h.dlist, h.members⟩

/-- A queue is not affected by a change to other queues and other entries. -/
theorem IsQueue.frame {m m' : QMem} {q : Nat} {l : List Nat} (h : IsQueue m q l)
    (hq : m'.queues q = m.queues q) (hw : ∀ i ∈ l, m'.waiting i = m.waiting i) : IsQueue m' q l := by
  refine ⟨?_, fun i hi => ?_, by rw [hq]; exact h.count, ?_⟩
  · rw [hq]
    exact h.dlist.congr (fun i hi => by rw [hw i hi]) fun i hi => by rw [hw i hi]
  · rw [hw i hi]; exact h.members i hi
  · rw [← h.counts]
    exact List.map_congr_left fun i hi => by rw [hw i hi]

/-- Renumbering a linked queue makes it a queue, and changes nothing but its counts. -/
theorem queueUpdate_spec {b : Build} {m : QMem} {q : Nat} {l : List Nat} (hq : q < b.maxQueue)
    (h : Linked m q l) (hle : l.length ≤ maxWaiting) :
    IsQueue (queueUpdate b m q).1 q l ∧
    (∀ q', q' ≠ q → (queueUpdate b m q).1.queues q' = m.queues q') ∧
    (∀ i ∉ l, (queueUpdate b m q).1.waiting i = m.waiting i) ∧
    (∀ i ∈ l, ∃ c, (queueUpdate b m q).1.waiting i = { m.waiting i with count := c }) := by
  obtain ⟨hR, hn, hcs⟩ := queueUpdateLoop_spec l m (m.queues q).first 0 h.dlist.fwd h.dlist.nodup
    (fun i hi => ⟨by rw [(h.members i hi).2.1]; decide, (h.members i hi).2.2.1⟩) (by omega)
  have heq : (queueUpdate b m q).1 = (queueUpdateLoop m (m.queues q).first 0).1.modifyQueue q
      fun x => { x with count := (queueUpdateLoop m (m.queues q).first 0).2 } := by
    unfold queueUpdate
    rw [if_neg (by omega)]
    simp
  rw [heq]
  generalize queueUpdateLoop m (m.queues q).first 0 = r at hR hn hcs
  obtain ⟨m1, n⟩ := r
  simp only at hR hn hcs ⊢
  have hw : ∀ i ∈ l, ∃ c, (m1.modifyQueue q fun x => { x with count := n }).waiting i =
      { m.waiting i with count := c } := hR.own
  refine ⟨⟨?_, fun i hi => ?_, ?_, ?_⟩, fun q' hq' => ?_, hR.others, hw⟩
  · have hfl : ((m1.modifyQueue q fun x => { x with count := n }).queues q).first = (m.queues q).first ∧
        ((m1.modifyQueue q fun x => { x with count := n }).queues q).last = (m.queues q).last := by
      simp [QMem.modifyQueue, hR.queues]
    rw [hfl.1, hfl.2]
    exact h.dlist.congr (fun i hi => by obtain ⟨c, hc⟩ := hw i hi; rw [hc])
      fun i hi => by obtain ⟨c, hc⟩ := hw i hi; rw [hc]
  · obtain ⟨c, hc⟩ := hw i hi
    rw [hc]; exact h.members i hi
  · simp [QMem.modifyQueue, hn]
  · rw [List.range_eq_range', ← hcs]; rfl
  · simp [QMem.modifyQueue, hR.queues, hq']

/-! ## Set up -/

theorem setup_frame (b : Build) (m : QMem) (s : Setup) :
    (setup b m s).waiting = m.waiting ∧
    ∀ q, ((setup b m s).queues q).first = (m.queues q).first ∧ ((setup b m s).queues q).last = (m.queues q).last ∧
      ((setup b m s).queues q).count = (m.queues q).count := by
  unfold setup queueSetname
  refine ⟨by split <;> rfl, fun q => ?_⟩
  by_cases hq : q = s.queue
  · subst hq
    split <;> simp [QMem.modifyQueue, QMem.error]
  · split <;> simp [QMem.modifyQueue, QMem.error, hq]

theorem setup_foldl_frame (b : Build) : ∀ (l : List Setup) (m : QMem),
    (l.foldl (setup b) m).waiting = m.waiting ∧
    ∀ q, ((l.foldl (setup b) m).queues q).first = (m.queues q).first ∧
      ((l.foldl (setup b) m).queues q).last = (m.queues q).last ∧
      ((l.foldl (setup b) m).queues q).count = (m.queues q).count
  | [], _ => ⟨rfl, fun _ => ⟨rfl, rfl, rfl⟩⟩
  | s :: l, m => by
    obtain ⟨hw, hq⟩ := setup_foldl_frame b l (setup b m s)
    obtain ⟨hw', hq'⟩ := setup_frame b m s
    refine ⟨hw.trans hw', fun q => ⟨(hq q).1.trans (hq' q).1, (hq q).2.1.trans (hq' q).2.1, ?_⟩⟩
    exact (hq q).2.2.trans (hq' q).2.2

/-- After `queues_init` every queue is empty and no entry is in use. -/
theorem queuesInit_inv (b : Build) (m : QMem) : QInv b (queuesInit b m) fun _ => [] := by
  obtain ⟨hw, hq⟩ := setup_foldl_frame b (setups b)
    { m with
      waiting := fun i => if i < maxWaiting then clearWait i (m.waiting i) else m.waiting i
      queues := fun i => if i < b.maxQueue then clearQueue (m.queues i) else m.queues i }
  have hwi : ∀ i < maxWaiting, (queuesInit b m).waiting i = clearWait i (m.waiting i) := fun i hi => by
    unfold queuesInit; rw [hw]; exact if_pos hi
  refine ⟨fun q hqb => ?_, fun i hi hu => ?_, fun i hi => ?_, fun i hi _ => ?_, fun i hi => ?_⟩
  · have hf : ((queuesInit b m).queues q).first = -1 := (hq q).1.trans (by simp [hqb, clearQueue])
    have hl : ((queuesInit b m).queues q).last = -1 := (hq q).2.1.trans (by simp [hqb, clearQueue])
    have hc : ((queuesInit b m).queues q).count = 0 := (hq q).2.2.trans (by simp [hqb, clearQueue])
    refine ⟨?_, by simp, hc, rfl⟩
    rw [hf, hl]
    exact DList.nil ptr _ _
  · rw [hwi i hi] at hu; exact absurd hu (by simp [clearWait])
  · rw [hwi i hi]; exact .inl rfl
  · rw [hwi i hi]; rfl
  · rw [hwi i hi]; rfl

/-! ## Joining -/

theorem QInv.error {b : Build} {m : QMem} {L : Nat → List Nat} (h : QInv b m L) (line : String) :
    QInv b (m.error line) L :=
  ⟨fun q hq => (h.queue q hq).frame rfl fun _ _ => rfl, h.owner, h.inuse, h.free, h.mynum⟩

theorem freeWait_spec {m : QMem} {i : Nat} (h : freeWait m = some i) : i < maxWaiting ∧ (m.waiting i).inuse = 0 := by
  have hm := List.mem_of_find?_eq_some h
  have hp := List.find?_some h
  exact ⟨List.mem_range.1 hm, by simpa using hp⟩

/-- What `queue_add` has stored when it gives back the entry `i`. -/
structure Added (c : Client) (q i : Nat) (m m' : QMem) : Prop where
  queues : ∀ q', q' ≠ q → m'.queues q' = m.queues q'
  first : (m'.queues q).first = if (m.queues q).first = -1 then (i : Int) else (m.queues q).first
  last : (m'.queues q).last = i
  count : (m'.queues q).count = ((m.queues q).count + 1) % 2 ^ 32
  others : ∀ j, j ≠ i → m'.waiting j =
    if (m.queues q).first ≠ -1 ∧ j = (m.queues q).last.toNat then { m.waiting j with next := i } else m.waiting j
  inuse : (m'.waiting i).inuse = 1
  next : (m'.waiting i).next = -1
  previous : (m'.waiting i).previous =
    if (m.queues q).first = -1 then (m.waiting i).previous else (m.queues q).last
  number : (m'.waiting i).count = (m.queues q).count
  process : (m'.waiting i).process = c.pid
  wQueue : (m'.waiting i).wQueue = q
  mynum : (m'.waiting i).mynum = (m.waiting i).mynum

/-- A client is refused if no entry is free. -/
theorem queueAdd_cases (m : QMem) (c : Client) (q : Nat) :
    queueAdd m c q = (m, -1) ∨ ∃ i, freeWait m = some i ∧ (queueAdd m c q).2 = i ∧ Added c q i m (queueAdd m c q).1 := by
  unfold queueAdd
  split
  · exact .inl rfl
  cases hi : freeWait m with
  | none => exact .inl rfl
  | some i =>
    refine .inr ⟨i, rfl, rfl, ?_⟩
    by_cases hf : (m.queues q).first = -1
    · constructor <;> simp +contextual [linkLast, QMem.modifyQueue, QMem.modifyWaiting, hf]
    · constructor <;> simp +contextual [linkLast, QMem.modifyQueue, QMem.modifyWaiting, hf]
      case others =>
        intro j hj
        by_cases hl : j = (m.queues q).last.toNat
        · subst hl; simp [hj]
        · simp [hl, hj]
      all_goals by_cases hl : i = (m.queues q).last.toNat <;> simp [Function.update_apply, hl]

/-- Joining appends an entry to its queue, or changes nothing. -/
theorem queueAdd_spec {b : Build} {m : QMem} {L : Nat → List Nat} (h : QInv b m L) (c : Client) {q : Nat}
    (hq : q < b.maxQueue) : queueAdd m c q = (m, -1) ∨
      ∃ i : Nat, (queueAdd m c q).2 = i ∧ QInv b (queueAdd m c q).1 (Function.update L q (L q ++ [i])) ∧
        ((queueAdd m c q).1.waiting i).process = c.pid ∧ (∀ q' < b.maxQueue, i ∉ L q') ∧
        ∀ j, j ≠ i → ((queueAdd m c q).1.waiting j).process = (m.waiting j).process := by
  rcases queueAdd_cases m c q with h0 | ⟨i, hi, hr, hA⟩
  · exact .inl h0
  obtain ⟨hlt, hu⟩ := freeWait_spec hi
  have hfresh : ∀ q' < b.maxQueue, i ∉ L q' := fun q' hq' hm => by
    have := ((h.queue q' hq').members i hm).2.1
    omega
  have hQ := h.queue q hq
  have hfirst : (m.queues q).first = -1 ↔ L q = [] := by
    rw [hQ.dlist.fwd.head]
    cases L q <;> simp [ptr]
  -- the entry whose `next` is redirected is the last one of this queue
  have hlast : ∀ j, (m.queues q).first ≠ -1 ∧ j = (m.queues q).last.toNat ↔ (L q).getLast? = some j := fun j => by
    rw [Ne, hfirst, hQ.dlist.last_eq]
    rcases List.eq_nil_or_concat (L q) with hn | ⟨l, k, hk⟩
    · simp [hn]
    · simp [hk, ptr, eq_comm (a := k)]
  have hoth : ∀ j, j ≠ i → (queueAdd m c q).1.waiting j =
      if (L q).getLast? = some j then { m.waiting j with next := i } else m.waiting j := fun j hj => by
    rw [hA.others j hj]
    simp only [hlast]
  have hframe : ∀ q' < b.maxQueue, q' ≠ q → ∀ j ∈ L q', (queueAdd m c q).1.waiting j = m.waiting j := by
    intro q' hq' hne j hj
    rw [hoth j (by rintro rfl; exact hfresh q' hq' hj), if_neg]
    exact fun hl => hne (h.disjoint hq' hq hj (List.mem_of_getLast? hl))
  have hown : ∀ j ∈ L q, (queueAdd m c q).1.waiting j =
      if (L q).getLast? = some j then { m.waiting j with next := i } else m.waiting j :=
    fun j hj => hoth j (by rintro rfl; exact hfresh q hq hj)
  have hlen := h.length_le hq
  refine .inr ⟨i, hr, ?_, hA.process, hfresh, fun j hj => by rw [hoth j hj]; split <;> rfl⟩
  refine ⟨fun q' hq' => ?_, fun j hj hju => ?_, fun j hj => ?_, fun j hj hju => ?_, fun j hj => ?_⟩
  · by_cases hne : q' = q
    · subst hne
      rw [Function.update_self]
      refine ⟨hQ.dlist.append (hfresh q' hq') hA.next ?_ ?_ hA.last (fun j hj => ?_) fun j hj => ?_, fun j hj => ?_, ?_, ?_⟩
      · rw [hA.previous]
        split
        · rename_i hf
          rw [h.free i hlt hu, hQ.dlist.last_eq, hfirst.1 hf]; rfl
        · rfl
      · rw [hA.first]; simp only [hfirst]; rfl
      · rw [hown j hj]; split <;> rfl
      · rw [hown j hj]; split <;> rfl
      · rcases List.mem_append.1 hj with hj | hj
        · rw [hown j hj]; split <;> exact hQ.members j hj
        · rw [List.mem_singleton] at hj; subst hj
          exact ⟨hlt, hA.inuse, by rw [hA.process]; exact c.pid_ne, hA.wQueue⟩
      · rw [hA.count, hQ.count, List.length_append, List.length_singleton]
        have : maxWaiting = 32 := rfl
        omega
      · rw [List.map_append, List.map_singleton, hA.number, hQ.count, List.length_append, List.length_singleton,
          List.range_succ, ← hQ.counts]
        congr 1
        exact List.map_congr_left fun j hj => by rw [hown j hj]; split <;> rfl
    · rw [Function.update_of_ne hne]
      exact (h.queue q' hq').frame (hA.queues q' hne) (hframe q' hq' hne)
  · by_cases hji : j = i
    · exact ⟨q, hq, by rw [hji]; simp⟩
    · rw [hoth j hji] at hju
      obtain ⟨q', hq', hm⟩ := h.owner j hj (by split at hju <;> exact hju)
      refine ⟨q', hq', ?_⟩
      by_cases hne : q' = q
      · subst hne; simp [hm]
      · rw [Function.update_of_ne hne]; exact hm
  · by_cases hji : j = i
    · exact .inr (hji ▸ hA.inuse)
    · rw [hoth j hji]; split <;> exact h.inuse j hj
  · by_cases hji : j = i
    · rw [hji, hA.inuse] at hju; cases hju
    · rw [hoth j hji] at hju ⊢
      split at hju <;> split <;> exact h.free j hj hju
  · by_cases hji : j = i
    · rw [hji, hA.mynum]; exact h.mynum i hlt
    · rw [hoth j hji]; split <;> exact h.mynum j hj

theorem queueAdd_inv {b : Build} {m : QMem} {L : Nat → List Nat} (h : QInv b m L) {c : Client} {q : Nat}
    (hq : q < b.maxQueue) : ∃ L', QInv b (queueAdd m c q).1 L' := by
  rcases queueAdd_spec h c hq with h0 | ⟨i, -, h', -⟩
  · exact ⟨L, by rw [h0]; exact h⟩
  · exact ⟨_, h'⟩

end Netrek.Queue
