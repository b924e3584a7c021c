/-
`findslot` of `ntserv/findslot.c`: processes that wait for a slot of the game, any number of them, whose
steps come in any order. What the functions they call leave of the queues and of the slots.
-/
import NetrekServer.Queue.Reach
import NetrekServer.Slot.Account

namespace Netrek.Queue

open Netrek.Lib SlotMaint

/-! ## Processes -/

/-- Where a process is in `findslot`: the queue, the entry that waits, and the slot it was given. -/
inductive Pc
  /-- It has not called `findslot`. -/
  | out
  /-- Nobody from its address is in its way; it will test whether anyone is waiting. -/
  | begun (q : Nat)
  /-- Nobody was waiting; it will try to enter now. -/
  | idle (q : Nat)
  /-- It will get into the queue. -/
  | joining (q : Nat)
  /-- It waits, at the start of the loop. -/
  | waiting (q w : Nat)
  /-- It was first in line, and will check for a free slot. -/
  | first (q w : Nat)
  /-- It has a slot, and will leave the queue. -/
  | given (q w : Nat) (i : Slot)
  /-- It was not first, or there was no slot. -/
  | checked (q w : Nat)
  /-- Its client or the server is gone, and it will leave the queue. -/
  | leaving (q w : Nat)
  /-- It has returned a slot. -/
  | playing (q : Nat) (i : Slot)
  /-- It has returned without a slot, or ended. -/
  | gone
  /-- It was killed, wherever it was. -/
  | dead
  deriving DecidableEq

namespace Pc

/-- The queue and the entry by which the process waits. -/
def entry : Pc → Option (Nat × Nat)
  | waiting q w | first q w | given q w _ | checked q w | leaving q w => some (q, w)
  | _ => none

/-- The queue of which the process has been given a slot, and the slot. -/
def slot : Pc → Option (Nat × Slot)
  | given q _ i | playing q i => some (q, i)
  | _ => none

/-- The queue the process is about. -/
def queue : Pc → Option Nat
  | begun q | idle q | joining q => some q
  | _ => none

/-- The process is no more. -/
def ended : Pc → Bool
  | gone | dead => true
  | _ => false

end Pc

/-- The shared memory, and where every process is. -/
structure Hall where
  mem : QMem
  server : Server
  desks : Slot → Desk
  pc : Nat → Pc

namespace Hall

def roster (s : Hall) : Roster := ⟨s.server, s.desks, s.mem.queues⟩

def withRoster (s : Hall) (r : Roster) : Hall :=
  { s with mem := { s.mem with queues := r.queues }, server := r.server, desks := r.desks }

def goto (s : Hall) (p : Nat) (c : Pc) : Hall := { s with pc := Function.update s.pc p c }

end Hall

/-- The number of a process. -/
def pid (p : Nat) : Int := p + 1

theorem pid_injective : Function.Injective pid := by
  intro p p' h
  unfold pid at h
  omega

/-- The client of a process. -/
def client (p : Nat) (ip host : String) (hide : Bool) : Client := ⟨pid p, by unfold pid; omega, ip, host, hide⟩

/-- The slot that `pickslot` answers with. -/
def slotOf (n : Int) : Option Slot := (List.finRange maxPlayer).find? fun i => (i.val : Int) == n

/-! ## Steps -/

/-- The steps of a process `p`, and of everyone else. -/
inductive Act
  | begin (p q : Nat)
  /-- Test whether anyone is waiting. -/
  | test (p : Nat)
  /-- Try to enter at once. -/
  | quick (p : Nat)
  | add (p : Nat) (ip host : String) (hide : Bool)
  /-- Own the wait slot, and compare it with the first in line. -/
  | look (p : Nat)
  | pick (p : Nat)
  /-- Go on waiting, or notice that the client or the server is gone. -/
  | sleep (p : Nat)
  | quit (p : Nat)
  /-- Leave the queue, to play or to end. -/
  | exit (p : Nat)
  | die (p : Nat)
  /-- A slot becomes free, and its process has ended. -/
  | freed (i : Slot)
  | purge (kill : Int → KillResult)
  /-- Whatever else happens to the players and the queues. -/
  | others (r : Roster)

/-- `pickslot` for a process, and where it goes with a slot and without one. -/
def pickFor (s : Hall) (p q : Nat) (won : Slot → Pc) (lost : Pc) : Hall :=
  let (r, n) := pickslot s.roster q
  let s := s.withRoster r
  match slotOf n with
  | some i => s.goto p (won i)
  | none => s.goto p lost

/-- `queue_add` for a process. -/
def addFor (s : Hall) (p q : Nat) (c : Client) : Hall :=
  let (m, n) := queueAdd s.mem c q
  { s with mem := m }.goto p (if n = -1 then .gone else .waiting q n.toNat)

/-- `queue_exit` for a process. -/
def exitFor (b : Build) (s : Hall) (p w : Nat) (next : Pc) : Hall :=
  { s with mem := (queueExit b s.mem w).1 }.goto p next

/-- The processes that had the slot are gone. -/
def evict (pc : Nat → Pc) (i : Slot) (p : Nat) : Pc :=
  match (pc p).slot with
  | some (_, j) => if j = i then .dead else pc p
  | none => pc p

def act (b : Build) (s : Hall) : Act → Hall
  | .begin p q =>
    match s.pc p with
    | .out => s.goto p (if (s.mem.queues q).qFlags.has quOpen then .begun q else .gone)
    | _ => s
  | .test p =>
    match s.pc p with
    | .begun q => s.goto p (if (s.mem.queues q).first = -1 then .idle q else .joining q)
    | _ => s
  | .quick p =>
    match s.pc p with
    | .idle q => pickFor s p q (.playing q) (.joining q)
    | _ => s
  | .add p ip host hide =>
    match s.pc p with
    | .joining q => addFor s p q (client p ip host hide)
    | _ => s
  | .look p =>
    match s.pc p with
    | .waiting q w =>
      -- a process that lost its entry gets into the queue again
      if (s.mem.waiting w).process ≠ pid p then s.goto p (.joining q)
      else s.goto p (if (w : Int) = (s.mem.queues q).first then .first q w else .checked q w)
    | _ => s
  | .pick p =>
    match s.pc p with
    | .first q w => pickFor s p q (.given q w) (.checked q w)
    | _ => s
  | .sleep p =>
    match s.pc p with
    | .checked q w => s.goto p (.waiting q w)
    | _ => s
  | .quit p =>
    match s.pc p with
    | .checked q w => s.goto p (.leaving q w)
    | _ => s
  | .exit p =>
    match s.pc p with
    | .given q w i => exitFor b s p w (.playing q i)
    | .leaving _ w => exitFor b s p w .gone
    | _ => s
  | .die p => if s.pc p = .out then s else s.goto p .dead
  | .freed i => { s.withRoster (freeslot s.roster i).1 with pc := evict s.pc i }
  | .purge kill => { s with mem := (queuesPurge b kill s.mem).1 }
  | .others r => s.withRoster r

/-- The ends of a queue, which only those who join and leave change. -/
def ends (x : PQueue) : Int × Int × Nat := (x.first, x.last, x.count)

/-- There is such a queue, a process that lives is not reported missing, and all else leaves alone the order of
the queues and the slots that are taken. -/
def Allowed (b : Build) (s : Hall) : Act → Prop
  | .begin _ q => q < b.maxQueue
  | .purge kill => ∀ p, (s.pc p).ended = false → s.pc p ≠ .out → kill (pid p) ≠ .esrch
  | .others r => (∀ q, ends (r.queues q) = ends (s.mem.queues q)) ∧
      ∀ i, (r.player i).status = .pfree ↔ (s.server.player i).status = .pfree
  | _ => True

/-! ## What is called -/

/-- A view of queues that does not see free slots and semaphores. -/
structure Blind {α : Type} (g : PQueue → α) : Prop where
  free : ∀ x n, g { x with freeSlots := n } = g x
  sem : ∀ x n, g { x with enterSem := n } = g x

theorem blind_ends : Blind ends := ⟨fun _ _ => rfl, fun _ _ => rfl⟩

variable {α : Type} {g : PQueue → α}

theorem Blind.modifyQueue (r : Roster) (q x : Nat) {f : PQueue → PQueue} (hf : ∀ y, g (f y) = g y) :
    g ((r.modifyQueue q f).queues x) = g (r.queues x) := by
  unfold Roster.modifyQueue
  dsimp only
  by_cases h : x = q
  · subst h
    rw [Function.update_self]
    exact hf _
  · rw [Function.update_of_ne h]

theorem Blind.addFree (hg : Blind g) (r : Roster) (q x : Nat) (n : Int) :
    g ((r.addFree q n).queues x) = g (r.queues x) := Blind.modifyQueue r q x fun y => hg.free y _

theorem Blind.setSem (hg : Blind g) (r : Roster) (q x : Nat) (n : Int) :
    g ((setSem r q n).queues x) = g (r.queues x) := Blind.modifyQueue r q x fun y => hg.sem y _

theorem Blind.freeslot (hg : Blind g) (r : Roster) (i : Slot) (x : Nat) :
    g ((freeslot r i).1.queues x) = g (r.queues x) := by
  unfold SlotMaint.freeslot
  dsimp only
  rw [Roster.queues_modifyDesk, hg.addFree, Roster.queues_modifyPlayer]
  split
  · exact hg.addFree ..
  · rfl

/-- What `pickslot` does to the slots: nothing, or one that was free is taken. -/
inductive Picks (r r' : Roster) : Int → Prop
  | none {n : Int} (hn : n < 0) (hp : ∀ j, r'.player j = r.player j) : Picks r r' n
  | some (i : Slot) (free : (r.player i).status = .pfree) (taken : (r'.player i).status = .poutfit)
      (others : ∀ j, j ≠ i → r'.player j = r.player j) : Picks r r' i.val

/-- A slot is picked from its queue, or none. -/
theorem pickslot_spec (hg : Blind g) (r : Roster) (q : Nat) :
    Picks r (pickslot r q).1 (pickslot r q).2 ∧ ∀ x, g ((pickslot r q).1.queues x) = g (r.queues x) := by
  unfold pickslot
  dsimp only
  split
  · exact ⟨.none (Int.negSucc_lt_zero _) fun _ => rfl, fun _ => rfl⟩
  split
  · exact ⟨.none (Int.negSucc_lt_zero _) fun _ => rfl, fun x => hg.setSem ..⟩
  split
  · exact ⟨.none (Int.negSucc_lt_zero _) fun _ => rfl, fun x => (hg.setSem ..).trans (hg.setSem ..)⟩
  rcases scanqueue_spec (setSem r q ((r.queues q).enterSem - 1)) q with ⟨i, -, hu, h⟩ | ⟨-, h⟩
  · rw [h]
    have hfree : (r.player i).status = .pfree := ((usable_setSem ..).1 hu).1
    refine ⟨.some i hfree (pickslotAction_gives hu).1 fun j hj => ?_, fun x => ?_⟩
    · show (pickslotAction _ q i).1.player j = r.player j
      unfold pickslotAction
      rw [if_neg (not_not_intro hu.1), hu.2]
      simp [hj]
    · show g ((setSem (pickslotAction _ q i).1 q 1).queues x) = _
      rw [hg.setSem]
      unfold pickslotAction
      rw [if_neg (not_not_intro hu.1), hu.2]
      dsimp only
      rw [if_neg Bool.false_ne_true, hg.addFree, Roster.queues_modifyDesk, Roster.queues_modifyPlayer, hg.setSem]
  · rw [h]
    exact ⟨.none (Int.negSucc_lt_zero _) fun _ => rfl, fun x => (hg.setSem ..).trans (hg.setSem ..)⟩

theorem slotOf_val (i : Slot) : slotOf i.val = some i := by
  have hex : ∃ j ∈ List.finRange maxPlayer, ((j.val : Int) == (i.val : Int)) = true := ⟨i, List.mem_finRange i, by simp⟩
  cases h : slotOf i.val with
  | none =>
    obtain ⟨j, hj, he⟩ := hex
    exact absurd he (List.find?_eq_none.1 h j hj)
  | some j =>
    have he := List.find?_some h
    simp only [beq_iff_eq] at he
    exact congrArg some (Fin.ext (by omega))

theorem slotOf_neg {n : Int} (h : n < 0) : slotOf n = none := by
  unfold slotOf
  rw [List.find?_eq_none]
  intro i _
  simp only [beq_iff_eq]
  omega

/-- The processes of other entries stay. -/
theorem process_queueUpdateLoop (m : QMem) (cur : Int) (n j : Nat) :
    ((queueUpdateLoop m cur n).1.waiting j).process = (m.waiting j).process := by
  fun_induction queueUpdateLoop m cur n with
  | case1 => rfl
  | case2 => rfl
  | case3 => rfl
  | case4 => rfl
  | case5 m cur n hcur hn current hu hp ih =>
    rw [ih]
    unfold QMem.modifyWaiting
    dsimp only
    by_cases h : j = cur.toNat
    · subst h
      rw [Function.update_self]
    · rw [Function.update_of_ne h]

theorem process_modifyWaiting (m : QMem) (i j : Nat) {f : QueueWait → QueueWait} (hf : ∀ w, (f w).process = w.process) :
    ((m.modifyWaiting i f).waiting j).process = (m.waiting j).process := by
  unfold QMem.modifyWaiting
  dsimp only
  by_cases h : j = i
  · subst h
    rw [Function.update_self, hf]
  · rw [Function.update_of_ne h]

/-- Unlinking an entry leaves the processes in all. -/
theorem process_unlink (m : QMem) (q i j : Nat) : ((unlink m q i).waiting j).process = (m.waiting j).process := by
  have hnext (m : QMem) (k : Nat) (n : Int) :
      ((m.modifyWaiting k fun w => { w with next := n }).waiting j).process = (m.waiting j).process :=
    process_modifyWaiting m k j fun _ => rfl
  have hprevious (m : QMem) (k : Nat) (n : Int) :
      ((m.modifyWaiting k fun w => { w with previous := n }).waiting j).process = (m.waiting j).process :=
    process_modifyWaiting m k j fun _ => rfl
  unfold unlink
  dsimp only
  split <;> split
  · rfl
  · exact hnext m _ _
  · exact hprevious (m.modifyQueue q _) _ _
  · exact (hprevious ..).trans (hnext ..)

/-- An exit clears the entry of who leaves. -/
theorem process_queueExit (b : Build) (m : QMem) {i j : Nat} (h : j ≠ i) :
    ((queueExit b m i).1.waiting j).process = (m.waiting j).process := by
  unfold queueExit
  dsimp only
  split
  · rfl
  · have hvacate : (((unlink m (m.waiting i).wQueue.toNat i).modifyWaiting i vacate).waiting j).process =
        (m.waiting j).process := by
      unfold QMem.modifyWaiting
      dsimp only
      rw [Function.update_of_ne h]
      exact process_unlink m _ i j
    unfold queueUpdate
    split
    · exact hvacate
    · exact (process_queueUpdateLoop ..).trans hvacate

/-! ## Purging -/

/-- Only entries of processes that are gone are taken out of the queues. -/
structure Purged (b : Build) (kill : Int → KillResult) (m m' : QMem) (L L' : Nat → List Nat) : Prop where
  sub : ∀ q < b.maxQueue, (L' q).Sublist (L q)
  process : ∀ q < b.maxQueue, ∀ w ∈ L' q, (m'.waiting w).process = (m.waiting w).process
  gone : ∀ q < b.maxQueue, ∀ w ∈ L q, w ∉ L' q → kill (m.waiting w).process = .esrch

theorem Purged.refl {b : Build} {kill : Int → KillResult} {m m' : QMem} (L : Nat → List Nat)
    (h : m'.waiting = m.waiting) : Purged b kill m m' L L :=
  ⟨fun _ _ => .refl _, fun _ _ _ _ => by rw [h], fun _ _ _ hw hn => absurd hw hn⟩

theorem Purged.trans {b : Build} {kill : Int → KillResult} {m m' m'' : QMem} {L L' L'' : Nat → List Nat}
    (h : Purged b kill m m' L L') (h' : Purged b kill m' m'' L' L'') : Purged b kill m m'' L L'' := by
  refine ⟨fun q hq => (h'.sub q hq).trans (h.sub q hq), fun q hq w hw => ?_, fun q hq w hw hn => ?_⟩
  · exact (h'.process q hq w hw).trans (h.process q hq w ((h'.sub q hq).subset hw))
  · by_cases hm : w ∈ L' q
    · rw [← h.process q hq w hm]
      exact h'.gone q hq w hm hn
    · exact h.gone q hq w hw hm

/-- The entry that leaves is taken out of its queue, and no other. -/
theorem queueExit_purged {b : Build} {m : QMem} {L : Nat → List Nat} {kill : Int → KillResult} (h : QInv b m L)
    {q i : Nat} {x y : List Nat} (hq : q < b.maxQueue) (hL : L q = x ++ i :: y)
    (hk : kill (m.waiting i).process = .esrch) :
    Purged b kill m (queueExit b m i).1 L (Function.update L q (x ++ y)) := by
  have hmem : i ∈ L q := by rw [hL]; simp
  have hnot : i ∉ x ++ y := by
    have hnd := (h.queue q hq).dlist.nodup
    rw [hL, List.nodup_middle, List.nodup_cons] at hnd
    exact hnd.1
  refine ⟨fun q' _ => ?_, fun q' hq' w hw => process_queueExit b m ?_, fun q' hq' w hw hn => ?_⟩
  · by_cases hqq : q' = q
    · subst hqq
      rw [Function.update_self, hL]
      exact List.Sublist.append_left (List.sublist_cons_self i y) x
    · rw [Function.update_of_ne hqq]
  · rintro rfl
    by_cases hqq : q' = q
    · subst hqq
      rw [Function.update_self] at hw
      exact hnot hw
    · rw [Function.update_of_ne hqq] at hw
      exact hqq (h.disjoint hq' hq hw hmem)
  · by_cases hqq : q' = q
    · subst hqq
      rw [Function.update_self] at hn
      rw [hL] at hw
      obtain rfl : w = i := by
        by_contra hne
        refine hn (List.mem_append.2 ((List.mem_append.1 hw).imp_right fun hw => ?_))
        exact (List.mem_cons.1 hw).resolve_left hne
      exact hk
    · rw [Function.update_of_ne hqq] at hn
      exact absurd hw hn

/-- An entry whose process is gone leaves its queue, and no other does. -/
theorem purgeEntry_purged {b : Build} {m : QMem} {L : Nat → List Nat} (kill : Int → KillResult) (h : QInv b m L)
    {q i : Nat} {x y : List Nat} (hq : q < b.maxQueue) (hL : L q = x ++ i :: y) :
    ∃ L', QInv b (purgeEntry b kill m (m.waiting i)) L' ∧ Purged b kill m (purgeEntry b kill m (m.waiting i)) L L' ∧
      (∀ q', q' ≠ q → L' q' = L q') ∧ (L' q = x ++ i :: y ∨ L' q = x ++ y) := by
  have hi := ((h.queue q hq).members i (by rw [hL]; simp)).1
  unfold purgeEntry
  cases hk : kill (m.waiting i).process with
  | ok => exact ⟨L, h, .refl L rfl, fun _ _ => rfl, .inl hL⟩
  | esrch =>
    have herror := h.error "queues_purge: removing dead waitQ player"
    rw [h.mynum i hi, Int.toNat_natCast]
    have hline : Purged b kill m (m.error "queues_purge: removing dead waitQ player") L L := .refl L rfl
    exact ⟨_, (queueExit_spec herror hq hL).1, hline.trans (queueExit_purged herror hq hL hk),
      fun q' hq' => Function.update_of_ne hq' _ _, .inr (Function.update_self ..)⟩
  | einval => exact ⟨L, h.error _, .refl L rfl, fun _ _ => rfl, .inl hL⟩
  | eperm => exact ⟨L, h.error _, .refl L rfl, fun _ _ => rfl, .inl hL⟩
  | other e => exact ⟨L, h.error _, .refl L rfl, fun _ _ => rfl, .inl hL⟩

/-- The loop over the last entries `l` of a queue. -/
theorem purgeLoop_purged {b : Build} (kill : Int → KillResult) {q : Nat} (hq : q < b.maxQueue) :
    ∀ (l x : List Nat) (m : QMem) (L : Nat → List Nat) (next : Int) (killcount : Nat),
      QInv b m L → L q = x ++ l → next = ptr l.head? → killcount + l.length ≤ maxWaiting →
      ∃ L', QInv b (purgeLoop b kill m next killcount).1 L' ∧
        Purged b kill m (purgeLoop b kill m next killcount).1 L L' ∧ ∀ q', q' ≠ q → L' q' = L q'
  | [], _, m, L, next, killcount, h, _, hn, _ => by
    have hn : next = -1 := hn
    unfold purgeLoop
    rw [if_pos hn]
    exact ⟨L, h, .refl L rfl, fun _ _ => rfl⟩
  | i :: l, x, m, L, next, killcount, h, hL, hn, hle => by
    have hi := (h.queue q hq).members i (by rw [hL]; simp)
    have hcur : next.toNat = i := by rw [hn]; simp [ptr]
    have hlt : ¬ maxWaiting ≤ killcount := by simp only [List.length_cons] at hle; omega
    have hloop : purgeLoop b kill m next killcount =
        purgeLoop b kill (purgeEntry b kill m (m.waiting i)) (m.waiting i).next (killcount + 1) := by
      conv => lhs; unfold purgeLoop
      rw [if_neg (by rw [hn]; simp [ptr]), dif_neg hlt, hcur]
      simp only
      rw [if_neg (by rw [hi.2.1]; decide), if_neg hi.2.2.1]
    have hd := (h.queue q hq).dlist
    rw [hL] at hd
    obtain ⟨L1, h1, hp1, hoth, hL1⟩ := purgeEntry_purged kill h hq hL
    obtain ⟨x', hx'⟩ : ∃ x', L1 q = x' ++ l := by
      rcases hL1 with he | he
      · exact ⟨x ++ [i], by rw [he]; simp⟩
      · exact ⟨x, he⟩
    obtain ⟨L', h', hp', hoth'⟩ := purgeLoop_purged kill hq l x' _ L1 (m.waiting i).next (killcount + 1) h1 hx' hd.next_eq
      (by simp only [List.length_cons] at hle; omega)
    rw [hloop]
    exact ⟨L', h', hp1.trans hp', fun q' hq' => (hoth' q' hq').trans (hoth q' hq')⟩

/-- The queues are purged one after the other. -/
theorem purgeQueues_purged {b : Build} (kill : Int → KillResult) :
    ∀ (qs : List Nat) (m : QMem) (L : Nat → List Nat) (killcount : Nat), QInv b m L → qs.Nodup →
      (∀ q ∈ qs, q < b.maxQueue) → killcount + (qs.flatMap L).length ≤ maxWaiting →
      ∃ L', QInv b (purgeQueues b kill m killcount qs).1 L' ∧
        Purged b kill m (purgeQueues b kill m killcount qs).1 L L'
  | [], _, L, _, h, _, _, _ => ⟨L, h, .refl L rfl⟩
  | q :: qs, m, L, killcount, h, hnd, hlt, hle => by
    have hq := hlt q (List.mem_cons_self ..)
    rw [List.flatMap_cons, List.length_append] at hle
    have hfirst := (h.queue q hq).dlist.fwd.head
    obtain ⟨L1, h1, hp1, hoth⟩ := purgeLoop_purged kill hq (L q) [] m L (m.queues q).first killcount h rfl hfirst (by omega)
    obtain ⟨-, -, -, hr⟩ := purgeLoop_spec kill hq (L q) [] m L (m.queues q).first killcount h rfl hfirst (by omega)
    have hqs : ∀ q' ∈ qs, L1 q' = L q' := fun q' hq' =>
      hoth q' (by rintro rfl; exact (List.nodup_cons.1 hnd).1 hq')
    have hflat : qs.flatMap L1 = qs.flatMap L := List.flatMap_congr hqs
    unfold purgeQueues
    generalize purgeLoop b kill m (m.queues q).first killcount = r at h1 hp1 hr ⊢
    obtain ⟨m1, n, left⟩ := r
    simp only [Prod.mk.injEq] at hr
    obtain ⟨rfl, rfl⟩ := hr
    have hclamp : (clampFree m1 q).waiting = m1.waiting := by
      unfold clampFree
      split <;> rfl
    obtain ⟨L', h', hp'⟩ := purgeQueues_purged kill qs _ L1 (killcount + (L q).length) (clampFree_inv h1 q)
      hnd.of_cons (fun q' hq' => hlt q' (List.mem_cons_of_mem _ hq')) (by rw [hflat]; omega)
    exact ⟨L', h', (hp1.trans (.refl L1 hclamp)).trans hp'⟩

/-- A purge takes out of the queues only entries of processes that are reported missing. -/
theorem queuesPurge_purged {b : Build} {m : QMem} {L : Nat → List Nat} (h : QInv b m L) (kill : Int → KillResult) :
    ∃ L', QInv b (queuesPurge b kill m).1 L' ∧ Purged b kill m (queuesPurge b kill m).1 L L' :=
  purgeQueues_purged kill _ m L 0 h List.nodup_range (fun _ hq => List.mem_range.1 hq) (by simpa using h.total_le)

end Netrek.Queue
