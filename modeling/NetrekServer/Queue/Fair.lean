/-
The wait queue is first come, first served: a process that begins while another waits gets no slot of the
queue before that one is done. Who waits is in the queue once, and nobody else; no slot is given twice.
-/
import NetrekServer.Queue.Findslot

namespace Netrek.Queue

open Netrek.Lib SlotMaint

/-! ## The invariant -/

/-- The queues are the lists `L`; each process that waits is on its list, first in line if it found so, and each
entry is of a process that waits or was killed; slots that were given are taken, each by one process. -/
structure Orderly (b : Build) (s : Hall) (L : Nat → List Nat) : Prop where
  queues : QInv b s.mem L
  range : ∀ p q, (s.pc p).queue = some q → q < b.maxQueue
  entry : ∀ p q w, (s.pc p).entry = some (q, w) → q < b.maxQueue ∧ w ∈ L q ∧ (s.mem.waiting w).process = pid p
  owner : ∀ q < b.maxQueue, ∀ w ∈ L q, ∃ p, (s.mem.waiting w).process = pid p ∧
    ((s.pc p).entry = some (q, w) ∨ s.pc p = .dead)
  head : ∀ p q w, (s.pc p = .first q w ∨ ∃ i, s.pc p = .given q w i) → (L q).head? = some w
  taken : ∀ p q i, (s.pc p).slot = some (q, i) → (s.server.player i).status ≠ .pfree
  single : ∀ p p' q q' i, (s.pc p).slot = some (q, i) → (s.pc p').slot = some (q', i) → p = p'

/-- How the lists change: who is on a list stays in order, newcomers are behind, entries keep their processes. -/
structure Flows (b : Build) (s s' : Hall) (L L' : Nat → List Nat) : Prop where
  order : ∀ q < b.maxQueue, ∀ w w', [w, w'].Sublist (L q) → w ∈ L' q → w' ∈ L' q → [w, w'].Sublist (L' q)
  late : ∀ q < b.maxQueue, ∀ w ∈ L q, ∀ w' ∈ L' q, w' ∉ L q → w ∈ L' q → [w, w'].Sublist (L' q)
  process : ∀ q < b.maxQueue, ∀ w ∈ L q, w ∈ L' q → (s'.mem.waiting w).process = (s.mem.waiting w).process

variable {b : Build} {s s' : Hall} {L L' : Nat → List Nat}

theorem Flows.same (h : s'.mem.waiting = s.mem.waiting) : Flows b s s' L L :=
  ⟨fun _ _ _ _ h _ _ => h, fun _ _ _ _ _ hw hn _ => absurd hw hn, fun _ _ _ _ _ => by rw [h]⟩

/-- The members of a sublist, in the order of the list, are the sublist. -/
theorem filter_sublist {l l' : List Nat} (hnd : l.Nodup) (hs : l'.Sublist l) : l.filter (· ∈ l') = l' := by
  induction hs with
  | slnil => rfl
  | @cons l' l a hs ih =>
    obtain ⟨ha, hnd⟩ := List.nodup_cons.1 hnd
    have hn : a ∉ l' := fun h => ha (hs.subset h)
    simp [hn, ih hnd]
  | @cons_cons l' l a hs ih =>
    obtain ⟨ha, hnd⟩ := List.nodup_cons.1 hnd
    have hfilter : l.filter (· ∈ a :: l') = l.filter (· ∈ l') := by
      refine List.filter_congr fun x hx => ?_
      have hne : x ≠ a := by
        rintro rfl
        exact ha hx
      simp [hne]
    simp only [List.filter_cons, List.mem_cons_self, decide_true, if_true]
    rw [hfilter, ih hnd]

/-- Whoever is left stays in order. -/
theorem order_of_sublist {l l' : List Nat} (hnd : l.Nodup) (hs : l'.Sublist l) {w w' : Nat} (h : [w, w'].Sublist l)
    (hw : w ∈ l') (hw' : w' ∈ l') : [w, w'].Sublist l' := by
  have hfilter := h.filter (· ∈ l')
  rw [filter_sublist hnd hs] at hfilter
  simpa [hw, hw'] using hfilter

theorem Flows.of_sublist (hq : ∀ q < b.maxQueue, (L q).Nodup) (hsub : ∀ q < b.maxQueue, (L' q).Sublist (L q))
    (hp : ∀ q < b.maxQueue, ∀ w ∈ L' q, (s'.mem.waiting w).process = (s.mem.waiting w).process) :
    Flows b s s' L L' where
  order q hlt _ _ h hw hw' := order_of_sublist (hq q hlt) (hsub q hlt) h hw hw'
  late q hlt _ _ _ hw' hn _ := absurd ((hsub q hlt).subset hw') hn
  process q hlt w _ hw := hp q hlt w hw

/-! ## Moves of one process -/

@[simp] theorem pc_goto (s : Hall) (p p' : Nat) (c : Pc) : (s.goto p c).pc p' = if p' = p then c else s.pc p' := by
  unfold Hall.goto
  simp only [Function.update_apply]

/-- The lists are found by the entries and the ends of the queues. -/
theorem QInv.congr {m m' : QMem} (h : QInv b m L) (hw : m'.waiting = m.waiting)
    (hq : ∀ q, ends (m'.queues q) = ends (m.queues q)) : QInv b m' L := by
  refine ⟨fun q hlt => ?_, ?_, ?_, ?_, ?_⟩
  · obtain ⟨hd, hmem, hcount, hcounts⟩ := h.queue q hlt
    have he := hq q
    unfold ends at he
    simp only [Prod.mk.injEq] at he
    obtain ⟨hf, hl, hc⟩ := he
    constructor
    · rw [hw, hf, hl]
      exact hd
    · rw [hw]
      exact hmem
    · rw [hc]
      exact hcount
    · rw [hw]
      exact hcounts
  all_goals rw [hw]
  · exact h.owner
  · exact h.inuse
  · exact h.free
  · exact h.mynum

/-- The slots and the queues change, but no order and no slot that was given. -/
theorem Orderly.withRoster (h : Orderly b s L) {r : Roster} (hq : ∀ q, ends (r.queues q) = ends (s.mem.queues q))
    (ht : ∀ p q i, (s.pc p).slot = some (q, i) → (r.player i).status ≠ .pfree) : Orderly b (s.withRoster r) L :=
  ⟨h.queues.congr rfl hq, h.range, h.entry, h.owner, h.head, ht, h.single⟩

/-- A process goes on, or is killed. -/
theorem Orderly.goto (h : Orderly b s L) {p : Nat} {c : Pc} (hrange : ∀ q, c.queue = some q → q < b.maxQueue)
    (hentry : c.entry = (s.pc p).entry ∧ s.pc p ≠ .dead ∨ c = .dead)
    (hhead : ∀ q w, (c = .first q w ∨ ∃ i, c = .given q w i) → (L q).head? = some w)
    (hslot : ∀ q i, c.slot = some (q, i) → (s.server.player i).status ≠ .pfree ∧
      ∀ p', p' ≠ p → ∀ q', (s.pc p').slot ≠ some (q', i)) : Orderly b (s.goto p c) L := by
  refine ⟨h.queues, fun p' q hp' => ?_, fun p' q w hp' => ?_, fun q hlt w hw => ?_, fun p' q w hp' => ?_,
    fun p' q i hp' => ?_, fun p' p'' q q' i hp' hp'' => ?_⟩
  · rw [pc_goto] at hp'
    split at hp'
    · exact hrange q hp'
    · exact h.range p' q hp'
  · rw [pc_goto] at hp'
    split at hp'
    · subst_vars
      -- the mover keeps his entry, or is dead and has none
      rcases hentry with ⟨he, -⟩ | rfl
      · exact h.entry _ q w (he.symm.trans hp')
      · cases hp'
    · exact h.entry p' q w hp'
  · obtain ⟨p', hproc, hor⟩ := h.owner q hlt w hw
    refine ⟨p', hproc, ?_⟩
    rw [pc_goto]
    split
    · subst_vars
      rcases hentry with ⟨he, hd⟩ | rfl
      · exact .inl (he.trans (hor.resolve_right hd))
      · exact .inr rfl
    · exact hor
  · rw [pc_goto] at hp'
    split at hp'
    · exact hhead q w hp'
    · exact h.head p' q w hp'
  · rw [pc_goto] at hp'
    split at hp'
    · exact (hslot q i hp').1
    · exact h.taken p' q i hp'
  · rw [pc_goto] at hp' hp''
    -- of two with the same slot neither is the mover, or both are
    by_cases h' : p' = p <;> by_cases h'' : p'' = p
    · exact h'.trans h''.symm
    · rw [if_pos h'] at hp'
      rw [if_neg h''] at hp''
      exact absurd hp'' ((hslot q i hp').2 p'' h'' q')
    · rw [if_neg h'] at hp'
      rw [if_pos h''] at hp''
      exact absurd hp' ((hslot q' i hp'').2 p' h' q)
    · rw [if_neg h'] at hp'
      rw [if_neg h''] at hp''
      exact h.single p' p'' q q' i hp' hp''

/-- A process goes on with what it has. -/
theorem Orderly.move (h : Orderly b s L) {p : Nat} {c : Pc} (hrange : ∀ q, c.queue = some q → q < b.maxQueue)
    (hentry : c.entry = (s.pc p).entry) (hd : s.pc p ≠ .dead)
    (hhead : ∀ q w, c = .first q w → (L q).head? = some w) (hslot : c.slot = none) : Orderly b (s.goto p c) L := by
  refine h.goto hrange (.inl ⟨hentry, hd⟩) (fun q w hc => ?_) fun q i hc => ?_
  · rcases hc with hc | ⟨i, rfl⟩
    · exact hhead q w hc
    · cases hslot
  · rw [hslot] at hc
    cases hc

/-- `pickslot` gives a slot that nobody has. -/
theorem Orderly.pickFor (h : Orderly b s L) {p q : Nat} {won : Slot → Pc} {lost : Pc} (hd : s.pc p ≠ .dead)
    (hwon : ∀ i, (won i).entry = (s.pc p).entry ∧ (won i).queue = none ∧ (won i).slot = some (q, i))
    (hhead : ∀ i q w, (won i = .first q w ∨ ∃ j, won i = .given q w j) → (L q).head? = some w)
    (hlost : lost.entry = (s.pc p).entry ∧ lost.slot = none ∧ ∀ q w, lost ≠ .first q w)
    (hrange : ∀ q, lost.queue = some q → q < b.maxQueue) : Orderly b (pickFor s p q won lost) L := by
  obtain ⟨hpick, hends⟩ := pickslot_spec blind_ends s.roster q
  unfold Queue.pickFor
  generalize pickslot s.roster q = x at hpick hends ⊢
  obtain ⟨r, n⟩ := x
  dsimp only at hpick hends ⊢
  cases hpick with
  | none hn hp =>
    rw [slotOf_neg hn]
    have hr : Orderly b (s.withRoster r) L := h.withRoster hends fun p' q' i hi => by
      rw [hp]
      exact h.taken p' q' i hi
    exact hr.move hrange hlost.1 hd (fun q w hc => absurd hc (hlost.2.2 q w)) hlost.2.1
  | some i hfree htaken hothers =>
    rw [slotOf_val]
    have hnobody : ∀ p' q', (s.pc p').slot ≠ some (q', i) := fun p' q' hi => h.taken p' q' i hi hfree
    have hr : Orderly b (s.withRoster r) L := h.withRoster hends fun p' q' j hj => by
      have hji : j ≠ i := by
        rintro rfl
        exact hnobody p' q' hj
      rw [hothers j hji]
      exact h.taken p' q' j hj
    refine hr.goto (fun q hq => ?_) (.inl ⟨(hwon i).1, hd⟩) (hhead i) fun q' j hj => ?_
    · rw [(hwon i).2.1] at hq
      cases hq
    · rw [(hwon i).2.2] at hj
      cases hj
      refine ⟨?_, fun p' _ q' => hnobody p' q'⟩
      show (r.player i).status ≠ .pfree
      rw [htaken]
      decide

theorem waiting_pickFor (s : Hall) (p q : Nat) (won : Slot → Pc) (lost : Pc) :
    (pickFor s p q won lost).mem.waiting = s.mem.waiting := by
  unfold pickFor
  dsimp only
  split <;> rfl

/-! ## Joining, leaving, purging -/

/-- A process that joins is last. -/
theorem Orderly.addFor (h : Orderly b s L) {p q : Nat} (hp : s.pc p = .joining q) {c : Client} (hc : c.pid = pid p) :
    ∃ L', Orderly b (addFor s p q c) L' ∧ Flows b s (addFor s p q c) L L' := by
  have hq : q < b.maxQueue := h.range p q (by rw [hp]; rfl)
  have hspec := queueAdd_spec h.queues c hq
  unfold Queue.addFor
  generalize queueAdd s.mem c q = x at hspec ⊢
  obtain ⟨m, n⟩ := x
  dsimp only at hspec ⊢
  rcases hspec with he | ⟨i, rfl, hQ, hproc, hfresh, hothers⟩
  · obtain ⟨rfl, rfl⟩ := Prod.mk.inj he
    rw [if_pos rfl]
    refine ⟨L, h.move (fun _ hn => by cases hn) (by rw [hp]; rfl) (by simp [hp]) (fun _ _ hn => by cases hn) rfl, .same rfl⟩
  rw [if_neg (by omega), Int.toNat_natCast]
  have hlist (q' : Nat) : Function.update L q (L q ++ [i]) q' = if q' = q then L q' ++ [i] else L q' := by
    by_cases hqq : q' = q
    · subst hqq
      simp
    · simp [hqq]
  have hmem {q' w : Nat} (hw : w ∈ L q') : w ∈ Function.update L q (L q ++ [i]) q' := by
    rw [hlist]
    split
    · exact List.mem_append_left _ hw
    · exact hw
  have hkept {q' w : Nat} (hq' : q' < b.maxQueue) (hw : w ∈ L q') : (m.waiting w).process = (s.mem.waiting w).process :=
    hothers w (by rintro rfl; exact hfresh q' hq' hw)
  refine ⟨Function.update L q (L q ++ [i]), ⟨hQ, ?_, ?_, ?_, ?_, ?_, ?_⟩, ?_, ?_, ?_⟩
  -- each field: nothing changes but for `p`, whose entry is the new one
  · intro p' q' hp'
    rw [pc_goto] at hp'
    split at hp'
    · cases hp'
    · exact h.range p' q' hp'
  · intro p' q' w hp'
    rw [pc_goto] at hp'
    split at hp'
    · subst_vars
      cases hp'
      exact ⟨hq, by simp, hproc.trans hc⟩
    · obtain ⟨hq', hw, he⟩ := h.entry p' q' w hp'
      exact ⟨hq', hmem hw, (hkept hq' hw).trans he⟩
  -- an entry is an old one, or the new one, which is that of `p`
  · intro q' hq' w hw
    by_cases hold : w ∈ L q'
    · obtain ⟨p', he, hor⟩ := h.owner q' hq' w hold
      have hne : p' ≠ p := by
        rintro rfl
        rw [hp] at hor
        simp [Pc.entry] at hor
      refine ⟨p', (hkept hq' hold).trans he, ?_⟩
      rw [pc_goto, if_neg hne]
      exact hor
    · rw [hlist] at hw
      split at hw
      · subst_vars
        obtain rfl : w = i := by simpa [hold] using hw
        exact ⟨p, hproc.trans hc, .inl (by simp [Pc.entry])⟩
      · exact absurd hw hold
  -- the head stays, as the new entry comes last
  · intro p' q' w hp'
    rw [pc_goto] at hp'
    split at hp'
    · simp at hp'
    · have hhead := h.head p' q' w hp'
      rw [hlist]
      split
      · rw [List.head?_append, hhead]
        rfl
      · exact hhead
  · intro p' q' j hp'
    rw [pc_goto] at hp'
    split at hp'
    · cases hp'
    · exact h.taken p' q' j hp'
  · intro p' p'' q' q'' j hp' hp''
    rw [pc_goto] at hp' hp''
    split at hp'
    · cases hp'
    split at hp''
    · cases hp''
    exact h.single p' p'' q' q'' j hp' hp''
  -- what is in order stays so, and whoever was there is before the new one
  · intro q' _ w w' hs _ _
    rw [hlist]
    split
    · exact hs.trans (List.sublist_append_left _ _)
    · exact hs
  · intro q' _ w hw w' hw' hn _
    rw [hlist] at hw' ⊢
    split at hw'
    · obtain rfl : w' = i := by simpa [hn] using hw'
      rw [if_pos ‹_›]
      exact List.Sublist.append (List.singleton_sublist.2 hw) (.refl _)
    · exact absurd hw' hn
  · intro q' hq' w hw _
    exact hkept hq' hw

theorem head_of_sublist {l l' : List Nat} {w : Nat} (hnd : l.Nodup) (hs : l'.Sublist l) (h : l.head? = some w)
    (hw : w ∈ l') : l'.head? = some w := by
  cases hs with
  | slnil => cases hw
  | cons a hs =>
    rw [List.head?_cons, Option.some.injEq] at h
    subst h
    exact absurd (hs.subset hw) (List.nodup_cons.1 hnd).1
  | cons_cons a hs =>
    rw [List.head?_cons] at h ⊢
    exact h

/-- Some processes are no longer in the queues, and those that wait are still. -/
theorem Orderly.shrink (h : Orderly b s L) (hQ : QInv b s'.mem L') (hserver : s'.server = s.server)
    (hsub : ∀ q < b.maxQueue, (L' q).Sublist (L q))
    (hproc : ∀ q < b.maxQueue, ∀ w ∈ L' q, (s'.mem.waiting w).process = (s.mem.waiting w).process)
    (hpc : ∀ p, s'.pc p = s.pc p ∨ (s'.pc p).entry = none ∧ (s'.pc p).queue = none ∧ (s'.pc p).slot = (s.pc p).slot ∧
      s.pc p ≠ .dead ∧ ∀ q w, (s.pc p).entry = some (q, w) → w ∉ L' q)
    (hkeep : ∀ p q w, (s'.pc p).entry = some (q, w) → w ∈ L' q) : Orderly b s' L' ∧ Flows b s s' L L' := by
  -- who still has an entry has not moved
  have hsame (p q w : Nat) (hp : (s'.pc p).entry = some (q, w)) : s'.pc p = s.pc p := by
    rcases hpc p with he | ⟨he, -⟩
    · exact he
    · rw [he] at hp
      cases hp
  have hslot (p : Nat) : (s'.pc p).slot = (s.pc p).slot := by
    rcases hpc p with he | ⟨-, -, he, -⟩
    · rw [he]
    · exact he
  have hnd (q : Nat) (hq : q < b.maxQueue) : (L q).Nodup := (h.queues.queue q hq).dlist.nodup
  refine ⟨⟨hQ, ?_, ?_, ?_, ?_, ?_, ?_⟩, .of_sublist hnd hsub hproc⟩
  -- each part is that of before, for the fewer entries that are left
  · intro p q hp
    rcases hpc p with he | ⟨-, he, -⟩
    · rw [he] at hp
      exact h.range p q hp
    · rw [he] at hp
      cases hp
  · intro p q w hp
    have hw := hkeep p q w hp
    rw [hsame p q w hp] at hp
    obtain ⟨hq, -, he⟩ := h.entry p q w hp
    exact ⟨hq, hw, (hproc q hq w hw).trans he⟩
  · intro q hq w hw
    obtain ⟨p, he, hor⟩ := h.owner q hq w ((hsub q hq).subset hw)
    refine ⟨p, (hproc q hq w hw).trans he, ?_⟩
    -- an entry that is left has an owner who did not move
    rcases hpc p with hpc | ⟨-, -, -, hd, hgone⟩
    · rw [hpc]
      exact hor
    · exact absurd hw (hgone q w (hor.resolve_right hd))
  · intro p q w hp
    have hentry : (s'.pc p).entry = some (q, w) := by
      -- a head that is left stays the head
      rcases hp with hp | ⟨i, hp⟩ <;> rw [hp] <;> rfl
    have hw := hkeep p q w hentry
    rw [hsame p q w hentry] at hp hentry
    have hq := (h.entry p q w hentry).1
    exact head_of_sublist (hnd q hq) (hsub q hq) (h.head p q w hp) hw
  · intro p q i hp
    rw [hserver]
    rw [hslot] at hp
    exact h.taken p q i hp
  · intro p p' q q' i hp hp'
    rw [hslot] at hp hp'
    exact h.single p p' q q' i hp hp'

/-- A process leaves the queue. -/
theorem Orderly.exitFor (h : Orderly b s L) {p q w : Nat} (hp : (s.pc p).entry = some (q, w)) {next : Pc}
    (hentry : next.entry = none) (hqueue : next.queue = none) (hslot : next.slot = (s.pc p).slot) :
    (∃ L', Orderly b (exitFor b s p w next) L' ∧ Flows b s (exitFor b s p w next) L L') ∧
      (queueExit b s.mem w).2 = 1 := by
  obtain ⟨hq, hw, hproc⟩ := h.entry p q w hp
  obtain ⟨x, y, hL⟩ := List.append_of_mem hw
  obtain ⟨hQ, hone⟩ := queueExit_spec h.queues hq hL
  have hpurged : Purged b (fun _ => .esrch) s.mem (queueExit b s.mem w).1 L (Function.update L q (x ++ y)) :=
    queueExit_purged h.queues hq hL rfl
  -- the entry is on its queue once, so it is gone
  have hgone : w ∉ Function.update L q (x ++ y) q := by
    have hnd := (h.queues.queue q hq).dlist.nodup
    rw [hL, List.nodup_middle, List.nodup_cons] at hnd
    simpa using hnd.1
  refine ⟨⟨Function.update L q (x ++ y), h.shrink hQ rfl hpurged.sub hpurged.process ?_ ?_⟩, hone⟩
  -- the one who leaves has neither entry nor queue
  · intro p'
    unfold Queue.exitFor
    rw [pc_goto]
    split
    · subst_vars
      refine .inr ⟨hentry, hqueue, hslot, ?_, ?_⟩
      · intro hd
        rw [hd] at hp
        cases hp
      · intro q' w' hp'
        obtain ⟨rfl, rfl⟩ := Prod.mk.inj (Option.some.inj (hp.symm.trans hp'))
        exact hgone
    · exact .inl rfl
  · intro p' q' w' hp'
    unfold Queue.exitFor at hp'
    rw [pc_goto] at hp'
    split at hp'
    · rw [hentry] at hp'
      cases hp'
    · rename_i hne
      obtain ⟨-, hw', hproc'⟩ := h.entry p' q' w' hp'
      -- another entry is not the one that was taken off
      by_cases hqq : q' = q
      · subst hqq
        have hww : w' ≠ w := by
          rintro rfl
          exact hne (pid_injective (hproc'.symm.trans hproc))
        rw [Function.update_self]
        rw [hL] at hw'
        simpa [hww] using hw'
      · rw [Function.update_of_ne hqq]
        exact hw'

/-- Whoever lives stays in the queue. -/
theorem Orderly.purge (h : Orderly b s L) {kill : Int → KillResult}
    (hk : ∀ p, (s.pc p).ended = false → s.pc p ≠ .out → kill (pid p) ≠ .esrch) :
    ∃ L', Orderly b { s with mem := (queuesPurge b kill s.mem).1 } L' ∧
      Flows b s { s with mem := (queuesPurge b kill s.mem).1 } L L' := by
  obtain ⟨L', hQ, hP⟩ := queuesPurge_purged h.queues kill
  refine ⟨L', h.shrink hQ rfl hP.sub hP.process (fun _ => .inl rfl) fun p q w hp => ?_⟩
  obtain ⟨hq, hw, he⟩ := h.entry p q w hp
  by_contra hn
  have hmissing := hP.gone q hq w hw hn
  rw [he] at hmissing
  refine hk p ?_ ?_ hmissing
  · cases hc : s.pc p <;> rw [hc] at hp <;> first | rfl | cases hp
  · intro hc
    rw [hc] at hp
    cases hp

/-! ## Slots that become free -/

theorem evict_cases (pc : Nat → Pc) (i : Slot) (p : Nat) :
    evict pc i p = .dead ∨ evict pc i p = pc p ∧ ∀ q, (pc p).slot ≠ some (q, i) := by
  unfold evict
  cases hs : (pc p).slot with
  | none => exact .inr ⟨rfl, fun q h => by cases h⟩
  | some x =>
    obtain ⟨q, j⟩ := x
    dsimp only
    split
    · exact .inl rfl
    · rename_i hj
      refine .inr ⟨rfl, fun q' h => hj ?_⟩
      exact (Prod.mk.inj (Option.some.inj h)).2

/-- A slot is freed, and the process in it killed. -/
theorem Orderly.freed (h : Orderly b s L) (i : Slot) :
    Orderly b { s.withRoster (freeslot s.roster i).1 with pc := evict s.pc i } L := by
  -- who is not evicted is where it was
  have hpc (p : Nat) {α : Type} {f : Pc → Option α} {x : α} (hf : f .dead = none) (hx : f (evict s.pc i p) = some x) :
      evict s.pc i p = s.pc p ∧ ∀ q, (s.pc p).slot ≠ some (q, i) := by
    refine (evict_cases s.pc i p).resolve_left fun hd => ?_
    rw [hd, hf] at hx
    cases hx
  have hplayer (j : Slot) (hj : j ≠ i) : (freeslot s.roster i).1.player j = s.server.player j := by
    unfold freeslot
    dsimp only
    rw [Roster.player_modifyDesk, Roster.player_addFree, Roster.player_modifyPlayer, if_neg hj]
    split <;> rfl
  refine ⟨h.queues.congr rfl fun q => blind_ends.freeslot s.roster i q, ?_, ?_, ?_, ?_, ?_, ?_⟩
  · intro p q hp
    have he := (hpc p rfl hp).1
    exact h.range p q (he ▸ hp)
  · intro p q w hp
    have he := (hpc p rfl hp).1
    exact h.entry p q w (he ▸ hp)
  · intro q hq w hw
    obtain ⟨p, hproc, hor⟩ := h.owner q hq w hw
    refine ⟨p, hproc, ?_⟩
    rcases evict_cases s.pc i p with hd | ⟨he, -⟩
    · exact .inr hd
    · show (evict s.pc i p).entry = _ ∨ evict s.pc i p = _
      rw [he]
      exact hor
  · intro p q w hp
    have hentry : (evict s.pc i p).entry = some (q, w) := by
      rcases hp with hp | ⟨j, hp⟩
      · exact congrArg Pc.entry hp
      · exact congrArg Pc.entry hp
    have he := (hpc p rfl hentry).1
    exact h.head p q w (he ▸ hp)
  -- a slot that a process was given and has not left is not the one that is freed
  · intro p q j hp
    obtain ⟨he, hn⟩ := hpc p rfl hp
    have hslot : (s.pc p).slot = some (q, j) := he ▸ hp
    have hj : j ≠ i := by
      rintro rfl
      exact hn q hslot
    show ((freeslot s.roster i).1.player j).status ≠ _
    rw [hplayer j hj]
    exact h.taken p q j hslot
  · intro p p' q q' j hp hp'
    have he := (hpc p rfl hp).1
    have he' := (hpc p' rfl hp').1
    exact h.single p p' q q' j (he ▸ hp) (he' ▸ hp')

/-! ## Steps -/

/-- Every step keeps the hall in order. -/
theorem Orderly.act (h : Orderly b s L) {a : Act} (ha : Allowed b s a) :
    ∃ L', Orderly b (act b s a) L' ∧ Flows b s (act b s a) L L' := by
  have stay : ∃ L', Orderly b s L' ∧ Flows b s s L L' := ⟨L, h, .same rfl⟩
  cases a with
  | begin p q =>
    unfold Queue.act
    dsimp only
    split
    -- a process begins, where it may
    · rename_i hp
      refine ⟨L, ?_, .same rfl⟩
      split
      · exact h.move (fun q' hq' => by cases hq'; exact ha) (by rw [hp]; rfl) (by simp [hp]) (fun _ _ hn => by cases hn) rfl
      · exact h.move (fun q' hq' => by cases hq') (by rw [hp]; rfl) (by simp [hp]) (fun _ _ hn => by cases hn) rfl
    · exact stay
  | test p =>
    unfold Queue.act
    dsimp only
    split
    -- whom `findslot` finds waiting has no part in the list
    · rename_i q hp
      have hq : q < b.maxQueue := h.range p q (by rw [hp]; rfl)
      refine ⟨L, ?_, .same rfl⟩
      split
      · exact h.move (fun q' hq' => by cases hq'; exact hq) (by rw [hp]; rfl) (by simp [hp]) (fun _ _ hn => by cases hn) rfl
      · exact h.move (fun q' hq' => by cases hq'; exact hq) (by rw [hp]; rfl) (by simp [hp]) (fun _ _ hn => by cases hn) rfl
    · exact stay
  | quick p =>
    unfold Queue.act
    dsimp only
    split
    · rename_i q hp
      have hq : q < b.maxQueue := h.range p q (by rw [hp]; rfl)
      -- a slot is picked without an entry
      refine ⟨L, h.pickFor (by simp [hp]) (fun i => ⟨by rw [hp]; rfl, rfl, rfl⟩) ?_ ⟨by rw [hp]; rfl, rfl, ?_⟩ ?_, ?_⟩
      · rintro i q' w (hn | ⟨j, hn⟩) <;> cases hn
      · rintro q' w hn
        cases hn
      · rintro q' hq'
        cases hq'
        exact hq
      · exact .same (waiting_pickFor ..)
    · exact stay
  | add p ip host hide =>
    unfold Queue.act
    dsimp only
    split
    · rename_i q hp
      exact h.addFor hp rfl
    · exact stay
  | look p =>
    unfold Queue.act
    dsimp only
    split
    · rename_i q w hp
      -- the entry is that of `p` still, so nobody has taken it over
      have hentry : (s.pc p).entry = some (q, w) := by rw [hp]; rfl
      obtain ⟨hq, hw, hproc⟩ := h.entry p q w hentry
      refine ⟨L, ?_, ?_⟩
      · rw [if_neg (not_not_intro hproc)]
        split
        · rename_i hfirst
          refine h.move (fun _ hn => by cases hn) hentry.symm (by simp [hp]) (fun q' w' hn => ?_) rfl
          cases hn
          -- the entry that `first` names is the head of the list
          rw [(h.queues.queue q hq).dlist.fwd.head] at hfirst
          exact ptr_injective hfirst.symm
        · exact h.move (fun _ hn => by cases hn) hentry.symm (by simp [hp]) (fun _ _ hn => by cases hn) rfl
      · rw [if_neg (not_not_intro hproc)]
        exact .same rfl
    · exact stay
  | pick p =>
    unfold Queue.act
    dsimp only
    split
    · rename_i q w hp
      have hentry : (s.pc p).entry = some (q, w) := by rw [hp]; rfl
      -- the process that picks is the first
      have hhead : (L q).head? = some w := h.head p q w (.inl hp)
      refine ⟨L, h.pickFor (by simp [hp]) (fun i => ⟨hentry.symm, rfl, rfl⟩) ?_ ⟨hentry.symm, rfl, ?_⟩ ?_, ?_⟩
      · rintro i q' w' (hn | ⟨j, hn⟩) <;> cases hn
        exact hhead
      · rintro q' w' hn
        cases hn
      · rintro q' hq'
        cases hq'
      · exact .same (waiting_pickFor ..)
    · exact stay
  | sleep p =>
    unfold Queue.act
    dsimp only
    split
    · rename_i q w hp
      refine ⟨L, h.move (fun _ hn => by cases hn) (by rw [hp]; rfl) (by simp [hp]) (fun _ _ hn => by cases hn) rfl, .same rfl⟩
    · exact stay
  | quit p =>
    unfold Queue.act
    dsimp only
    split
    · rename_i q w hp
      refine ⟨L, h.move (fun _ hn => by cases hn) (by rw [hp]; rfl) (by simp [hp]) (fun _ _ hn => by cases hn) rfl, .same rfl⟩
    · exact stay
  | exit p =>
    unfold Queue.act
    dsimp only
    split
    · rename_i q w i hp
      -- the entry is given up, whether the process plays or leaves
      exact (h.exitFor (by rw [hp]; rfl) rfl rfl (by rw [hp]; rfl)).1
    · rename_i q w hp
      exact (h.exitFor (by rw [hp]; rfl) rfl rfl (by rw [hp]; rfl)).1
    · exact stay
  | die p =>
    unfold Queue.act
    dsimp only
    split
    · exact stay
    -- a process that dies keeps its entry until the purge
    · refine ⟨L, h.goto (fun _ hn => by cases hn) (.inr rfl) ?_ (fun _ _ hn => by cases hn), .same rfl⟩
      rintro q w (hn | ⟨i, hn⟩) <;> cases hn
  | freed i => exact ⟨L, h.freed i, .same rfl⟩
  | purge kill => exact h.purge ha
  | others r =>
    refine ⟨L, h.withRoster ha.1 fun p q i hi => ?_, .same rfl⟩
    rw [Ne, ha.2]
    exact h.taken p q i hi

/-! ## Where a process goes -/

/-- The ways of one process in a step, with what it found. -/
inductive Goes (s : Hall) (p : Nat) : Pc → Pc → Prop
  | stays (c : Pc) : Goes s p c c
  | begins (q : Nat) : Goes s p .out (.begun q)
  | refused : Goes s p .out .gone
  | nobody (q : Nat) (h : (s.mem.queues q).first = -1) : Goes s p (.begun q) (.idle q)
  | somebody (q : Nat) : Goes s p (.begun q) (.joining q)
  | enters (q : Nat) (i : Slot) : Goes s p (.idle q) (.playing q i)
  | full (q : Nat) : Goes s p (.idle q) (.joining q)
  | joins (q w : Nat) : Goes s p (.joining q) (.waiting q w)
  | crowded (q : Nat) : Goes s p (.joining q) .gone
  | loses (q w : Nat) (h : (s.mem.waiting w).process ≠ pid p) : Goes s p (.waiting q w) (.joining q)
  | leads (q w : Nat) : Goes s p (.waiting q w) (.first q w)
  | follows (q w : Nat) : Goes s p (.waiting q w) (.checked q w)
  | wins (q w : Nat) (i : Slot) : Goes s p (.first q w) (.given q w i)
  | misses (q w : Nat) : Goes s p (.first q w) (.checked q w)
  | sleeps (q w : Nat) : Goes s p (.checked q w) (.waiting q w)
  | quits (q w : Nat) : Goes s p (.checked q w) (.leaving q w)
  | plays (q w : Nat) (i : Slot) : Goes s p (.given q w i) (.playing q i)
  | ends (q w : Nat) : Goes s p (.leaving q w) .gone
  | dies (c : Pc) (h : c ≠ .out) : Goes s p c .dead

theorem goes_goto {p p' : Nat} {c c' : Pc} (hp : s.pc p = c) (h : Goes s p c c') :
    Goes s p' (s.pc p') ((s.goto p c').pc p') := by
  rw [pc_goto]
  split
  · subst_vars
    exact h
  · exact .stays _

theorem goes_pickFor {p p' q : Nat} {c lost : Pc} {won : Slot → Pc} (hp : s.pc p = c) (hw : ∀ i, Goes s p c (won i))
    (hl : Goes s p c lost) : Goes s p' (s.pc p') ((pickFor s p q won lost).pc p') := by
  unfold pickFor
  dsimp only
  split
  · exact goes_goto hp (hw _)
  · exact goes_goto hp hl

/-- A process that joins a queue takes an entry, unless there is none. -/
theorem goes_addFor {p p' q : Nat} (c : Client) (hp : s.pc p = .joining q) :
    Goes s p' (s.pc p') ((addFor s p q c).pc p') := by
  unfold addFor
  dsimp only
  rw [pc_goto]
  split
  · subst_vars
    rw [hp]
    split
    · exact .crowded q
    · exact .joins q _
  · exact .stays _

/-- A slot is freed: a process goes on, or is killed with it. -/
theorem goes_evict (i : Slot) (p : Nat) : Goes s p (s.pc p) (evict s.pc i p) := by
  rcases evict_cases s.pc i p with hd | ⟨he, -⟩
  · rw [hd]
    by_cases hout : s.pc p = .out
    · unfold evict at hd
      rw [hout] at hd
      cases hd
    · exact .dies _ hout
  · rw [he]
    exact .stays _

/-- Whatever act comes next, a process takes at most one of its own steps. -/
theorem goes_act (b : Build) (s : Hall) (a : Act) (p : Nat) : Goes s p (s.pc p) ((act b s a).pc p) := by
  cases a with
  -- an act that does not fit where its process is changes nothing
  | begin p' q =>
    unfold act
    dsimp only
    split
    · rename_i hp
      split
      · exact goes_goto hp (.begins q)
      · exact goes_goto hp .refused
    · exact .stays _
  | test p' =>
    unfold act
    dsimp only
    split
    · rename_i q hp
      split
      · exact goes_goto hp (.nobody q ‹_›)
      · exact goes_goto hp (.somebody q)
    · exact .stays _
  | quick p' =>
    unfold act
    dsimp only
    split
    · rename_i q hp
      exact goes_pickFor hp (fun i => .enters q i) (.full q)
    · exact .stays _
  | add p' ip host hide =>
    unfold act
    dsimp only
    split
    · rename_i q hp
      exact goes_addFor _ hp
    · exact .stays _
  -- the rounds of the wait
  | look p' =>
    unfold act
    dsimp only
    split
    · rename_i q w hp
      split
      · exact goes_goto hp (.loses q w ‹_›)
      · split
        · exact goes_goto hp (.leads q w)
        · exact goes_goto hp (.follows q w)
    · exact .stays _
  | pick p' =>
    unfold act
    dsimp only
    split
    · rename_i q w hp
      exact goes_pickFor hp (fun i => .wins q w i) (.misses q w)
    · exact .stays _
  | sleep p' =>
    unfold act
    dsimp only
    split
    · rename_i q w hp
      exact goes_goto hp (.sleeps q w)
    · exact .stays _
  | quit p' =>
    unfold act
    dsimp only
    split
    · rename_i q w hp
      exact goes_goto hp (.quits q w)
    · exact .stays _
  | exit p' =>
    unfold act
    dsimp only
    split
    · rename_i q w i hp
      exact goes_goto hp (.plays q w i)
    · rename_i q w hp
      exact goes_goto hp (.ends q w)
    · exact .stays _
  -- the ends of processes, and what others do
  | die p' =>
    unfold act
    dsimp only
    split
    · exact .stays _
    · exact goes_goto rfl (.dies _ ‹_›)
  | freed i => exact goes_evict i p
  | purge kill => exact .stays _
  | others r => exact .stays _

/-! ## First come, first served -/

/-- The process is done with the queue for good. -/
inductive Past : Pc → Prop
  | playing (q : Nat) (i : Slot) : Past (.playing q i)
  | gone : Past .gone
  | dead : Past .dead

theorem Past.goes {p : Nat} {c c' : Pc} (h : Past c) (hg : Goes s p c c') : Past c' := by
  cases h <;> cases hg <;> constructor

theorem Past.entry {c : Pc} (h : Past c) : c.entry = none := by
  cases h <;> rfl

/-- The process is not served before the one at the entry `w`: it found someone waiting, or waits behind. -/
structure Behind (L : Nat → List Nat) (q w : Nat) (c : Pc) : Prop where
  idle : c ≠ .idle q
  entry : ∀ w', c.entry = some (q, w') → [w, w'].Sublist (L q)
  slot : ∀ i, c.slot ≠ some (q, i)

/-- A process with neither an entry nor a slot. -/
theorem Behind.of_none {q w : Nat} {c : Pc} (hi : c ≠ .idle q) (he : c.entry = none) (hs : c.slot = none) :
    Behind L q w c := by
  refine ⟨hi, fun w' hn => ?_, fun i hn => ?_⟩
  · rw [he] at hn
    cases hn
  · rw [hs] at hn
    cases hn

/-- While one process waits, the other stays behind it. -/
def Ahead (s : Hall) (L : Nat → List Nat) (p p' q w : Nat) : Prop :=
  Past (s.pc p) ∨ (s.pc p).entry = some (q, w) ∧ Behind L q w (s.pc p')

/-- A process that waits keeps its entry until it is done. -/
theorem entry_goes (h : Orderly b s L) {p q w : Nat} {c : Pc} (he : (s.pc p).entry = some (q, w))
    (hg : Goes s p (s.pc p) c) : Past c ∨ c.entry = some (q, w) := by
  have hproc := (h.entry p q w he).2.2
  generalize s.pc p = c₀ at he hg
  cases hg with
  | stays => exact .inr he
  | loses q' w' hlost =>
    obtain ⟨rfl, rfl⟩ := Prod.mk.inj (Option.some.inj he)
    exact absurd hproc hlost
  | plays => exact .inl (.playing _ _)
  | ends => exact .inl .gone
  | dies => exact .inl .dead
  | leads => exact .inr he
  | follows => exact .inr he
  | wins => exact .inr he
  | misses => exact .inr he
  | sleeps => exact .inr he
  | quits => exact .inr he
  | begins | refused | nobody | somebody | enters | full | joins | crowded => cases he

theorem not_head_of_sublist {l : List Nat} {w w' : Nat} (hnd : l.Nodup) (h : [w, w'].Sublist l) : l.head? ≠ some w' := by
  intro hhead
  cases h with
  | cons a h =>
    rw [List.head?_cons, Option.some.injEq] at hhead
    subst hhead
    exact (List.nodup_cons.1 hnd).1 (h.subset (by simp))
  | cons_cons a h =>
    rw [List.head?_cons, Option.some.injEq] at hhead
    subst hhead
    exact (List.nodup_cons.1 hnd).1 (h.subset (by simp))

/-- Who is behind stays so. -/
theorem Behind.goes (h : Orderly b s L) (h' : Orderly b s' L') (hf : Flows b s s' L L') {p p' q w : Nat}
    (he : (s.pc p).entry = some (q, w)) (he' : (s'.pc p).entry = some (q, w))
    (hb : Behind L q w (s.pc p')) (hg : Goes s p' (s.pc p') (s'.pc p')) : Behind L' q w (s'.pc p') := by
  obtain ⟨hq, hw, -⟩ := h.entry p q w he
  have hw' := (h'.entry p q w he').2.1
  have hQ := h.queues.queue q hq
  -- who had an entry of this queue has it still, and in order
  have hkept (w' : Nat) (hold : (s.pc p').entry = some (q, w')) (hnew : (s'.pc p').entry = some (q, w')) :
      [w, w'].Sublist (L' q) := hf.order q hq w w' (hb.entry w' hold) hw' (h'.entry p' q w' hnew).2.1
  -- who gets an entry of this queue is new in it
  have hnew (w' : Nat) (hold : (s.pc p').entry = none) (hd : s.pc p' ≠ .dead) (hnew : (s'.pc p').entry = some (q, w')) :
      [w, w'].Sublist (L' q) := by
    obtain ⟨-, hmem, hproc⟩ := h'.entry p' q w' hnew
    refine hf.late q hq w hw w' hmem (fun hin => ?_) hw'
    obtain ⟨p₂, hproc₂, hor⟩ := h.owner q hq w' hin
    obtain rfl : p₂ = p' := pid_injective (hproc₂.symm.trans ((hf.process q hq w' hin hmem).symm.trans hproc))
    rcases hor with hor | hor
    · rw [hold] at hor
      cases hor
    · exact hd hor
  have hown := h.entry p'
  have hhead := h.head p'
  generalize s.pc p' = c at hb hg hkept hnew hown hhead
  generalize s'.pc p' = c' at hg hkept hnew
  cases hg with
  | stays => exact ⟨hb.idle, fun w' hn => hkept w' hn hn, hb.slot⟩
  | nobody q' hfirst =>
    refine .of_none ?_ rfl rfl
    rintro ⟨⟩
    -- the one that waits is on the list, which therefore has a first
    rw [hQ.dlist.fwd.head] at hfirst
    have hnil : (L q).head? = none := ptr_injective hfirst
    rw [List.head?_eq_none_iff] at hnil
    rw [hnil] at hw
    cases hw
  | enters q' i =>
    refine ⟨fun hn => (by cases hn), fun _ hn => (by cases hn), fun j hn => ?_⟩
    obtain ⟨rfl, -⟩ := Prod.mk.inj (Option.some.inj hn)
    exact hb.idle rfl
  | joins q' w' => exact ⟨fun hn => (by cases hn), fun w₂ hn => hnew w₂ rfl (by simp) hn, fun _ hn => (by cases hn)⟩
  | loses q' w' hlost => exact absurd (hown q' w' rfl).2.2 hlost
  | wins q' w' i =>
    refine ⟨fun hn => (by cases hn), fun w₂ hn => hkept w₂ hn hn, fun j hn => ?_⟩
    obtain ⟨rfl, -⟩ := Prod.mk.inj (Option.some.inj hn)
    exact not_head_of_sublist hQ.dlist.nodup (hb.entry w' rfl) (hhead q' w' (.inl rfl))
  | leads q' w' => exact ⟨fun hn => (by cases hn), fun w₂ hn => hkept w₂ hn hn, fun _ hn => (by cases hn)⟩
  | follows q' w' => exact ⟨fun hn => (by cases hn), fun w₂ hn => hkept w₂ hn hn, fun _ hn => (by cases hn)⟩
  | misses q' w' => exact ⟨fun hn => (by cases hn), fun w₂ hn => hkept w₂ hn hn, fun _ hn => (by cases hn)⟩
  | sleeps q' w' => exact ⟨fun hn => (by cases hn), fun w₂ hn => hkept w₂ hn hn, fun _ hn => (by cases hn)⟩
  | quits q' w' => exact ⟨fun hn => (by cases hn), fun w₂ hn => hkept w₂ hn hn, fun _ hn => (by cases hn)⟩
  | plays q' w' i => exact ⟨fun hn => (by cases hn), fun _ hn => (by cases hn), hb.slot⟩
  | begins | refused | somebody | full | crowded | ends | dies =>
    exact .of_none (by simp) rfl rfl

/-! ## Runs -/

/-- The daemon has set up the queues, and nobody has come yet. -/
structure Opened (b : Build) (s : Hall) : Prop where
  queues : ∃ m, s.mem = queuesInit b m
  out : ∀ p, s.pc p = .out

/-- At the opening nobody waits. -/
theorem Opened.orderly (h : Opened b s) : Orderly b s fun _ => [] := by
  obtain ⟨m, hm⟩ := h.queues
  refine ⟨hm ▸ queuesInit_inv b m, ?_, ?_, ?_, ?_, ?_, ?_⟩
  · intro p q hp
    rw [h.out] at hp
    cases hp
  · intro p q w hp
    rw [h.out] at hp
    cases hp
  · intro q _ w hw
    cases hw
  · intro p q w hp
    rw [h.out] at hp
    simp at hp
  · intro p q i hp
    rw [h.out] at hp
    cases hp
  · intro p p' q q' i hp
    rw [h.out] at hp
    cases hp

/-- In order, by some lists. -/
def InOrder (b : Build) (s : Hall) : Prop := ∃ L, Orderly b s L

theorem inOrder_act {a : Act} (ha : Allowed b s a) (h : InOrder b s) : InOrder b (act b s a) := by
  obtain ⟨L, h⟩ := h
  obtain ⟨L', h', -⟩ := h.act ha
  exact ⟨L', h'⟩

theorem ahead_act {p p' q w : Nat} {a : Act} (ha : Allowed b s a) (h : ∃ L, Orderly b s L ∧ Ahead s L p p' q w) :
    ∃ L, Orderly b (act b s a) L ∧ Ahead (act b s a) L p p' q w := by
  obtain ⟨L, h, hahead⟩ := h
  obtain ⟨L', h', hf⟩ := h.act ha
  refine ⟨L', h', ?_⟩
  rcases hahead with hpast | ⟨he, hb⟩
  · exact .inl (hpast.goes (goes_act b s a p))
  · rcases entry_goes h he (goes_act b s a p) with hpast | he'
    · exact .inl hpast
    · exact .inr ⟨he', hb.goes h h' hf he he' (goes_act b s a p')⟩

/-- The process waits in the queue. -/
def Waits (s : Hall) (p q : Nat) : Prop := ∃ w, (s.pc p).entry = some (q, w)

/-- A process that begins while another waits gets no slot of the queue while that one still waits. -/
theorem not_served {p p' q : Nat} {ops : List Act} (h : InOrder b s) (hp : Waits s p q) (hp' : s.pc p' = .out)
    (hrun : Run (Allowed b) (act b) s ops s') (hstill : Waits s' p q) (i : Slot) : (s'.pc p').slot ≠ some (q, i) := by
  obtain ⟨L, hL⟩ := h
  obtain ⟨w, hw⟩ := hp
  have hbehind : Behind L q w (s.pc p') := by
    rw [hp']
    exact .of_none (by simp) rfl rfl
  obtain ⟨L', -, hahead⟩ := hrun.inv (I := fun s => ∃ L, Orderly b s L ∧ Ahead s L p p' q w)
    (fun _ _ ha => ahead_act ha) ⟨L, hL, .inr ⟨hw, hbehind⟩⟩
  rcases hahead with hpast | ⟨-, hb⟩
  · obtain ⟨w', hw'⟩ := hstill
    rw [hpast.entry] at hw'
    cases hw'
  · exact hb.slot i

/-- Who is not killed is in the queues exactly where it waits. -/
theorem Orderly.once (h : Orderly b s L) {p : Nat} (hd : s.pc p ≠ .dead) {q : Nat} (hq : q < b.maxQueue) (w : Nat) :
    (w ∈ L q ∧ (s.mem.waiting w).process = pid p) ↔ (s.pc p).entry = some (q, w) := by
  constructor
  · rintro ⟨hw, hproc⟩
    obtain ⟨p', hproc', hor⟩ := h.owner q hq w hw
    obtain rfl : p' = p := pid_injective (hproc'.symm.trans hproc)
    exact hor.resolve_right hd
  · intro he
    obtain ⟨-, hw, hproc⟩ := h.entry p q w he
    exact ⟨hw, hproc⟩

/-- First come, first served: whatever the processes do, in whatever order, each is in the queue exactly where it waits,
leaves it from there once, no slot is two processes', and nobody overtakes. -/
theorem findslot_fair {s₀ : Hall} {ops : List Act} (h₀ : Opened b s₀) (h : Run (Allowed b) (act b) s₀ ops s) :
    (∃ L : Nat → List Nat, (∀ q < b.maxQueue, Threaded s.mem q (L q)) ∧ ∀ p, s.pc p ≠ .dead → ∀ q < b.maxQueue, ∀ w,
      (w ∈ L q ∧ (s.mem.waiting w).process = pid p) ↔ (s.pc p).entry = some (q, w)) ∧
    (∀ p q w, (s.pc p).entry = some (q, w) → (queueExit b s.mem w).2 = 1) ∧
    (∀ p p' q q' i, (s.pc p).slot = some (q, i) → (s.pc p').slot = some (q', i) → p = p') ∧
    ∀ p p' q, Waits s p q → s.pc p' = .out → ∀ (ops' : List Act) (s' : Hall), Run (Allowed b) (act b) s ops' s' →
      Waits s' p q → ∀ i, (s'.pc p').slot ≠ some (q, i) := by
  have hs : InOrder b s := h.inv (fun _ _ ha => inOrder_act ha) ⟨_, h₀.orderly⟩
  obtain ⟨L, hL⟩ := hs
  refine ⟨⟨L, fun q hq => ?_, fun p hd q hq w => hL.once hd hq w⟩, fun p q w he => ?_, hL.single, ?_⟩
  · have hQ := hL.queues.queue q hq
    exact ⟨hQ.dlist.fwd, hQ.dlist.last_eq, hQ.dlist.nodup, hQ.dlist.bwd,
      fun i hi j hj => hQ.dlist.next_iff_prev ptr_injective hi hj, hQ.members, hQ.count, hQ.counts⟩
  · obtain ⟨hq, hw, -⟩ := hL.entry p q w he
    obtain ⟨x, y, he'⟩ := List.append_of_mem hw
    exact (queueExit_spec hL.queues hq he').2
  · intro p p' q hp hp' ops' s' hrun hstill i
    exact not_served ⟨L, hL⟩ hp hp' hrun hstill i

/-- The first process finds the pickup queue without free slots, and waits; the next one is not served before it. -/
theorem findslot_fair_full : ∃ (s₀ s : Hall) (ops : List Act), Opened ⟨false, true, true⟩ s₀ ∧
    Run (Allowed ⟨false, true, true⟩) (act ⟨false, true, true⟩) s₀ ops s ∧ Waits s 0 quPickup ∧ s.pc 1 = .out ∧
      (queueExit ⟨false, true, true⟩ s.mem 0).2 = 1 ∧
      ∀ (ops' : List Act) (s' : Hall), Run (Allowed ⟨false, true, true⟩) (act ⟨false, true, true⟩) s ops' s' →
        Waits s' 0 quPickup → ∀ i, (s'.pc 1).slot ≠ some (quPickup, i) := by
  let b : Build := ⟨false, true, true⟩
  let s₀ : Hall := ⟨queuesInit b default, default, fun _ => default, fun _ => .out⟩
  let s₁ : Hall := act b (act b s₀ (Act.begin 0 quPickup)) (Act.test 0)
  let full : Roster := { s₁.roster with queues := fun q => { s₁.mem.queues q with freeSlots := 0 } }
  let s₂ : Hall := act b s₁ (Act.others full)
  let s : Hall := act b (act b s₂ (Act.quick 0)) (Act.add 0 "10.0.0.1" "localhost" false)
  have h₀ : Opened b s₀ := ⟨⟨_, rfl⟩, fun _ => rfl⟩
  have hbegin : Allowed b s₀ (Act.begin 0 quPickup) := by
    show quPickup < b.maxQueue
    decide
  have hothers : Allowed b s₁ (Act.others full) := ⟨fun _ => rfl, fun _ => Iff.rfl⟩
  have hwait : Run (Allowed b) (act b) s₂ [Act.quick 0, Act.add 0 "10.0.0.1" "localhost" false] s :=
    Run.cons trivial (Run.cons trivial (Run.nil s))
  have hrun := Run.cons hbegin (Run.cons (a := Act.test 0) trivial (Run.cons hothers hwait))
  have hw : (s.pc 0).entry = some (quPickup, 0) := by decide +kernel
  have hout : s.pc 1 = .out := by decide +kernel
  obtain ⟨-, hexit, -, hfair⟩ := findslot_fair h₀ hrun
  exact ⟨s₀, s, _, h₀, hrun, ⟨0, hw⟩, hout, hexit 0 quPickup 0 hw, hfair 0 1 quPickup ⟨0, hw⟩ hout⟩

end Netrek.Queue
