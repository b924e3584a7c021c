/-
The rings between the processes and the daemon lose nothing, repeat nothing and keep the order, in
every run that starts with no index at the end of its ring and in which the daemon passes no entry
whose post is under way. Neither condition can be dropped.
-/
import NetrekServer.Lib.Ring
import NetrekServer.Lib.Run
import NetrekServer.Uplink.Basic

namespace Netrek.Uplink

open Netrek.Lib

/-! ## Entries -/

theorem doMessageKick_eq {i n : Nat} (h : i < n) : doMessageKick i n = (i + 1) % n := by
  unfold doMessageKick
  by_cases hi : n ≤ i + 1
  · have : i + 1 = n := by omega
    rw [if_pos hi, this, Nat.mod_self]
  · rw [if_neg hi, Nat.mod_eq_of_lt (by omega)]

/-- Different rings and different places are different entries. -/
theorem entry_inj {s s' : Source} {i j : Nat} (hi : i < maxUplink) (hj : j < maxUplink)
    (h : entry s i = entry s' j) : s = s' ∧ i = j := by
  unfold maxUplink at hi hj
  cases s with
  | oob =>
    cases s' with
    | oob => exact ⟨rfl, Entry.oob.inj h⟩
    | player q => cases h
  | player p =>
    cases s' with
    | oob => cases h
    | player q =>
      have hk := Entry.uplink.inj h
      unfold maxUplink at hk
      have hpq : p.val = q.val := by omega
      exact ⟨congrArg _ (Fin.ext hpq), by omega⟩

theorem entry_right_inj {s : Source} {i j : Nat} (h : entry s i = entry s j) : i = j := by
  cases s with
  | oob => exact Entry.oob.inj h
  | player p => exact Nat.add_right_cancel (Entry.uplink.inj h)

theorem owns_entry (s : Source) {i : Nat} (hi : i < maxUplink) : s.Owns (entry s i) := by
  cases s with
  | oob => exact hi
  | player p => simp only [entry, Source.Owns]; rw [Nat.add_mul]; omega

theorem setValid_has (m : Message) : (setValid m).flags.has mvalid = true := by
  rw [Word.has_iff]
  intro h
  have hb := congrArg (fun w => w.getLsbD 0) h
  simp [setValid, mvalid] at hb

/-! ## The invariant -/

/-- Whether a source has a post under way, as a number of entries. -/
def busy (st : State) (s : Source) : Nat := if st.sending s = none then 0 else 1

theorem busy_none {st : State} {s : Source} (h : st.sending s = none) : busy st s = 0 := if_pos h

theorem busy_some {st : State} {s : Source} {p : Sending} (h : st.sending s = some p) : busy st s = 1 := by
  unfold busy; rw [h]; rfl

/-- The ring of the source `s` holds the messages `l`: posted, and not copied yet. Behind them is
the entry of the post under way, if there is one, and the index is at the last entry given out. -/
structure RingOK (st : State) (s : Source) (l : List Message) : Prop where
  cursor : st.cursor s < maxUplink
  index : st.index s = (st.cursor s + l.length + busy st s + (maxUplink - 1)) % maxUplink
  posted : st.posted s = copied st s ++ l
  room : l.length + busy st s ≤ st.since s
  since : st.since s ≤ maxUplink - 1
  held : Ring.Holds maxUplink (fun i => st.cell (entry s i)) (st.cursor s) l
  valid : ∀ m ∈ l, m.flags.has mvalid = true
  sending : ∀ p, st.sending s = some p → p.slot = (st.cursor s + l.length) % maxUplink ∧
    (p.filled = true → st.cell (entry s p.slot) = fillMessage p.call)

theorem RingOK.length_lt {st : State} {s : Source} {l : List Message} (h : RingOK st s l) : l.length < maxUplink := by
  have hr := h.room
  have hs := h.since
  have : 0 < maxUplink := by decide
  omega

/-- Every ring holds what has been posted to it and not been copied, and the daemon has read
each ring's own entries only. -/
structure Inv (st : State) : Prop where
  ring : ∀ s, ∃ l, RingOK st s l
  reads : ∀ r ∈ st.reads, r.1.Owns r.2

/-- A ring is not affected by what happens to the others. -/
theorem RingOK.frame {st st' : State} {s : Source} {l : List Message} (h : RingOK st s l)
    (hcur : st'.cursor s = st.cursor s) (hidx : st'.index s = st.index s) (hpost : st'.posted s = st.posted s)
    (hcop : copied st' s = copied st s) (hsince : st'.since s = st.since s) (hsend : st'.sending s = st.sending s)
    (hcell : ∀ i < maxUplink, st'.cell (entry s i) = st.cell (entry s i)) : RingOK st' s l := by
  have hbusy : busy st' s = busy st s := by unfold busy; rw [hsend]
  have hlt : ∀ i, i % maxUplink < maxUplink := fun i => Nat.mod_lt _ (by decide)
  refine ⟨by rw [hcur]; exact h.cursor, by rw [hidx, hcur, hbusy]; exact h.index, by rw [hpost, hcop]; exact h.posted,
    by rw [hbusy, hsince]; exact h.room, by rw [hsince]; exact h.since, ?_, h.valid, fun p hp => ?_⟩
  · rw [hcur]
    exact h.held.congr fun i _ => hcell _ (hlt _)
  · rw [hsend] at hp
    obtain ⟨h1, h2⟩ := h.sending p hp
    rw [hcur, hcell p.slot (by rw [h1]; exact hlt _)]
    exact ⟨h1, h2⟩

theorem forceDaemon_inv {st : State} (h : ∀ s, st.index s < maxUplink - 1) : Inv (doMessageForceDaemon st) := by
  refine ⟨fun s => ⟨[], ?_⟩, by simp [doMessageForceDaemon]⟩
  have hs := h s
  refine ⟨?_, ?_, rfl, ?_, ?_, trivial, by simp, by simp [doMessageForceDaemon]⟩
  · simp only [doMessageForceDaemon]; omega
  · simp only [doMessageForceDaemon, busy, List.length_nil, if_true, maxUplink] at hs ⊢; omega
  · simp [doMessageForceDaemon, busy]
  · simp [doMessageForceDaemon]

/-! ## The steps of a post -/

/-- A slot of the ring is taken. -/
theorem postAdvance_inv {st : State} (h : Inv st) {s : Source} (c : Call) (hs : st.sending s = none)
    (hroom : st.since s < maxUplink - 1) : Inv (postAdvance st s c) := by
  unfold postAdvance
  split
  · exact h
  refine ⟨fun s' => ?_, h.reads⟩
  obtain ⟨l, hl⟩ := h.ring s'
  refine ⟨l, ?_⟩
  by_cases hss : s' = s
  · subst hss
    have hb := busy_none hs
    have hr := hl.room
    rw [hb] at hr
    have hkick : doMessageKick (st.index s') maxUplink = (st.cursor s' + l.length) % maxUplink := by
      rw [doMessageKick_eq (by rw [hl.index]; exact Nat.mod_lt _ (by decide)), hl.index, hb]
      unfold maxUplink
      omega
    refine ⟨hl.cursor, ?_, hl.posted, ?_, ?_, hl.held, hl.valid, fun p hp => ?_⟩
    · rw [busy_some (Function.update_self ..)]
      simp only [Function.update_self, hkick]
      unfold maxUplink
      omega
    · rw [busy_some (Function.update_self ..)]
      simp only [Function.update_self]
      omega
    · simp only [Function.update_self]
      omega
    · simp only [Function.update_self, Option.some.injEq] at hp
      subst hp
      exact ⟨hkick, fun hf => by cases hf⟩
  · exact hl.frame rfl (Function.update_of_ne hss ..) rfl rfl (Function.update_of_ne hss ..)
      (Function.update_of_ne hss ..) fun _ _ => rfl

/-- The call is written into it. -/
theorem postFill_inv {st : State} (h : Inv st) (s : Source) : Inv (postFill st s) := by
  unfold postFill
  split
  case h_2 => exact h
  rename_i c i hs
  refine ⟨fun s' => ?_, h.reads⟩
  obtain ⟨l, hl⟩ := h.ring s'
  refine ⟨l, ?_⟩
  by_cases hss : s' = s
  · subst hss
    obtain ⟨hslot, -⟩ := hl.sending _ hs
    have hidx := hl.index
    have hr := hl.room
    rw [busy_some hs] at hidx hr
    refine ⟨hl.cursor, ?_, hl.posted, ?_, hl.since, ?_, hl.valid, fun p hp => ?_⟩
    · rw [busy_some (Function.update_self ..)]; exact hidx
    · rw [busy_some (Function.update_self ..)]; exact hr
    · refine hl.held.frame hl.length_lt (le_refl _) fun k hk => ?_
      exact Function.update_of_ne (fun he => hk ((entry_right_inj he).trans hslot)) ..
    · simp only [Function.update_self, Option.some.injEq] at hp
      subst hp
      exact ⟨hslot, fun _ => Function.update_self ..⟩
  · have hi : i < maxUplink := by
      obtain ⟨l', hl'⟩ := h.ring s
      obtain ⟨hslot, -⟩ := hl'.sending _ hs
      rw [show i = _ from hslot]
      exact Nat.mod_lt _ (by decide)
    exact hl.frame rfl rfl rfl rfl rfl (Function.update_of_ne hss ..) fun j hj =>
      Function.update_of_ne (fun he => hss (entry_inj hj hi he).1) ..

/-- The call is declared valid. -/
theorem postValid_inv {st : State} (h : Inv st) (s : Source) : Inv (postValid st s) := by
  unfold postValid
  split
  case h_2 => exact h
  rename_i c i hs
  refine ⟨fun s' => ?_, h.reads⟩
  obtain ⟨l, hl⟩ := h.ring s'
  by_cases hss : s' = s
  · subst hss
    refine ⟨l ++ [setValid (fillMessage c)], ?_⟩
    obtain ⟨hslot, hfill⟩ := hl.sending _ hs
    have hidx := hl.index
    have hr := hl.room
    rw [busy_some hs] at hidx hr
    refine ⟨hl.cursor, ?_, ?_, ?_, hl.since, ?_, fun m hm => ?_, fun p hp => ?_⟩
    · rw [busy_none (Function.update_self ..), List.length_append, List.length_singleton]; exact hidx
    · simp only [Function.update_self]
      rw [hl.posted, List.append_assoc]
      rfl
    · rw [busy_none (Function.update_self ..), List.length_append, List.length_singleton]; exact hr
    · refine (hl.held.frame hl.length_lt (le_refl _) fun k hk => ?_).push ?_
      · exact Function.update_of_ne (fun he => hk ((entry_right_inj he).trans hslot)) ..
      · rw [← hfill rfl, ← hslot]
        exact Function.update_self ..
    · rcases List.mem_append.1 hm with hm | hm
      · exact hl.valid m hm
      · rw [List.mem_singleton.1 hm]; exact setValid_has _
    · simp only [Function.update_self, reduceCtorEq] at hp
  · refine ⟨l, ?_⟩
    have hi : i < maxUplink := by
      obtain ⟨l', hl'⟩ := h.ring s
      obtain ⟨hslot, -⟩ := hl'.sending _ hs
      rw [show i = _ from hslot]
      exact Nat.mod_lt _ (by decide)
    exact hl.frame rfl rfl (Function.update_of_ne hss ..) rfl rfl (Function.update_of_ne hss ..) fun j hj =>
      Function.update_of_ne (fun he => hss (entry_inj hj hi he).1) ..

/-! ## The steps of the daemon -/

theorem copied_writeMain (st : State) (ring : Option Source) (m : Message) (s : Source) :
    copied (writeMain st ring m) s = if ring = some s then copied st s ++ [m] else copied st s := by
  unfold copied writeMain
  by_cases h : ring = some s <;> simp [h]

theorem daemonMessage_inv {st : State} (h : Inv st) (c : Call) : Inv (daemonMessage st c) := by
  unfold daemonMessage
  split
  · exact h
  refine ⟨fun s => ?_, h.reads⟩
  obtain ⟨l, hl⟩ := h.ring s
  exact ⟨l, hl.frame rfl rfl rfl (by rw [copied_writeMain]; exact if_neg (by simp)) rfl rfl fun _ _ => rfl⟩

/-- At a ring that holds nothing more the loop is left. -/
theorem drainStep_leave {st : State} {s : Source} {l : List Message} (hpc : st.pc = some s) (hl : RingOK st s l)
    (h0 : l.length + busy st s = 0) :
    drainStep st = { st with pc := s.next, since := Function.update st.since s 0 } := by
  have heq : st.cursor s = (st.index s + 1) % maxUplink := by
    have hc := hl.cursor
    rw [hl.index]
    unfold maxUplink at *
    omega
  unfold drainStep
  rw [hpc]
  simp only [ne_eq]
  rw [if_neg (not_not_intro heq)]

/-- At a ring that holds a message its first message is copied and its entry cleared. -/
theorem drainStep_requeue {st : State} {s : Source} {m : Message} {l : List Message} (hpc : st.pc = some s)
    (hl : RingOK st s (m :: l)) :
    drainStep st = { (writeMain st (some s) m) with
      reads := st.reads ++ [(s, entry s (st.cursor s))]
      cell := Function.update st.cell (entry s (st.cursor s)) { m with flags := 0 }
      cursor := Function.update st.cursor s ((st.cursor s + 1) % maxUplink) } := by
  have hne : st.cursor s ≠ (st.index s + 1) % maxUplink := by
    have hc := hl.cursor
    have hr := hl.room
    have hs := hl.since
    rw [hl.index]
    simp only [List.length_cons] at hr ⊢
    unfold maxUplink at *
    omega
  have hcell : st.cell (entry s (st.cursor s)) = m := by
    have := hl.held.1
    rwa [Nat.mod_eq_of_lt hl.cursor] at this
  have hv := hl.valid m (List.mem_cons_self ..)
  unfold drainStep
  rw [hpc]
  simp only [ne_eq]
  rw [if_pos hne]
  unfold doMessageRequeue writeMain
  simp only [hcell, hv, if_true]

/-- In an unhurried state a ring at which the daemon stands holds a message, or nothing at all. -/
theorem drainStep_inv {st : State} (h : Inv st) (hun : Unhurried st) : Inv (drainStep st) := by
  cases hpc : st.pc with
  -- the pass over the messages begins
  | none =>
    have heq : drainStep st = { st with pc := some (.player ⟨0, by decide⟩) } := by
      unfold drainStep; rw [hpc]
    rw [heq]
    refine ⟨fun s => ?_, h.reads⟩
    obtain ⟨l, hl⟩ := h.ring s
    exact ⟨l, hl.frame rfl rfl rfl rfl rfl rfl fun _ _ => rfl⟩
  | some s =>
    obtain ⟨l, hl⟩ := h.ring s
    cases l with
    | nil =>
      -- no slot is being filled: else the pass would have overtaken its sender
      have hb : busy st s = 0 := by
        cases hs : st.sending s with
        | none => exact busy_none hs
        | some p =>
          obtain ⟨hslot, -⟩ := hl.sending p hs
          exact absurd (hslot.trans (Nat.mod_eq_of_lt hl.cursor)) (hun s hpc p hs)
      rw [drainStep_leave hpc hl (by rw [hb]; rfl)]
      refine ⟨fun s' => ?_, h.reads⟩
      -- the source has nothing more, and the pass goes on to the next
      by_cases hss : s' = s
      · subst hss
        refine ⟨[], hl.cursor, hl.index, hl.posted, ?_, ?_, trivial, hl.valid, hl.sending⟩
        · simp only [Function.update_self, List.length_nil, Nat.zero_add]
          exact hb.le
        · simp only [Function.update_self]
          exact Nat.zero_le _
      · obtain ⟨l', hl'⟩ := h.ring s'
        exact ⟨l', hl'.frame rfl rfl rfl rfl (Function.update_of_ne hss ..) rfl fun _ _ => rfl⟩
    | cons m l =>
      rw [drainStep_requeue hpc hl]
      refine ⟨fun s' => ?_, fun r hr => ?_⟩
      -- the message at the cursor is copied and its slot given back
      · by_cases hss : s' = s
        · subst hss
          have hidx := hl.index
          have hr := hl.room
          simp only [List.length_cons] at hidx hr
          have hcop : ∀ st' : State, st'.main = (writeMain st (some s') m).main → copied st' s' = copied st s' ++ [m] :=
            fun st' hm => by
              have := copied_writeMain st (some s') m s'
              rw [if_pos rfl] at this
              rw [← this]; unfold copied; rw [hm]
          refine ⟨l, ?_, ?_, ?_, ?_, hl.since, ?_, fun k hk => hl.valid k (List.mem_cons_of_mem _ hk), fun p hp => ?_⟩
          · simp only [Function.update_self]; exact Nat.mod_lt _ (by decide)
          · simp only [Function.update_self]
            have hshift : ∀ c k b, (c + (k + 1) + b + (maxUplink - 1)) % maxUplink =
                ((c + 1) % maxUplink + k + b + (maxUplink - 1)) % maxUplink := fun c k b => by unfold maxUplink; omega
            exact hidx.trans (hshift ..)
          · refine Eq.symm ((congrArg (· ++ l) (hcop _ rfl)).trans ?_)
            simp only [List.append_assoc]
            exact hl.posted.symm
          · have : l.length + busy st s' ≤ st.since s' := by omega
            exact this
          · simp only [Function.update_self]
            rw [Ring.Holds.mod]
            refine hl.held.pop ?_ fun k hk => ?_
            · have := hl.length_lt
              simp only [List.length_cons] at this
              omega
            · rw [Nat.mod_eq_of_lt hl.cursor] at hk
              exact Function.update_of_ne (fun he => hk (entry_right_inj he)) ..
          -- a slot that is being filled is behind the cursor
          · obtain ⟨hslot, hfill⟩ := hl.sending p hp
            have hlen := hl.length_lt
            simp only [List.length_cons] at hslot hlen
            have hne : p.slot ≠ st.cursor s' := by
              intro he
              rw [hslot, ← Nat.mod_eq_of_lt hl.cursor] at he
              have := Ring.offset_inj (i := l.length + 1) (j := 0) hlen (by omega) (by simpa using he)
              omega
            refine ⟨?_, fun hf => ?_⟩
            · simp only [Function.update_self]
              rw [hslot, Nat.mod_add_mod]
              congr 1
              omega
            · exact (Function.update_of_ne (fun he => hne (entry_right_inj he)) ..).trans (hfill hf)
        · obtain ⟨l', hl'⟩ := h.ring s'
          refine ⟨l', hl'.frame (Function.update_of_ne hss ..) rfl rfl ?_ rfl rfl fun i hi => ?_⟩
          · have := copied_writeMain st (some s) m s'
            rw [if_neg (by simpa using fun he => hss he.symm)] at this
            rw [← this]; rfl
          · exact Function.update_of_ne (fun he => hss (entry_inj hi hl.cursor he).1) ..
      · rcases List.mem_append.1 hr with hr | hr
        · exact h.reads r hr
        · rw [List.mem_singleton.1 hr]; exact owns_entry s hl.cursor

theorem step_inv (st : State) (op : Op) (hop : op.clean st) (h : Inv st) : Inv (step st op) := by
  obtain ⟨hok, hun⟩ := hop
  cases op with
  | advance s c => exact postAdvance_inv h c hok.1 hok.2
  | fill s => exact postFill_inv h s
  | valid s => exact postValid_inv h s
  | drain => exact drainStep_inv h (hun rfl)
  | own c => exact daemonMessage_inv h c

/-! ## A drain with no post under way -/

/-- Every post has been completed. -/
def Idle (st : State) : Prop := ∀ s, st.sending s = none

theorem RingOK.prefix {st : State} {s : Source} {l : List Message} (h : RingOK st s l) : copied st s <+: st.posted s :=
  ⟨l, h.posted.symm⟩

/-- What a drain does to the messages of one source: none is posted, and no copy is taken back. -/
structure Drains (st st' : State) : Prop where
  inv : Inv st'
  idle : Idle st'
  posted : st'.posted = st.posted
  caught : ∀ s, copied st s = st.posted s → copied st' s = st.posted s

theorem Drains.refl {st : State} (h : Inv st) (hid : Idle st) : Drains st st := ⟨h, hid, rfl, fun _ hs => hs⟩

theorem Drains.trans {st st' st'' : State} (h : Drains st st') (h' : Drains st' st'') : Drains st st'' := by
  refine ⟨h'.inv, h'.idle, h'.posted.trans h.posted, fun s hs => ?_⟩
  have := h'.caught s (by rw [h.posted]; exact h.caught s hs)
  rwa [h.posted] at this

theorem Idle.unhurried {st : State} (h : Idle st) : Unhurried st := fun s _ p hp => by
  rw [h s] at hp; cases hp

theorem doMessageRequeue_frame (st : State) (s : Source) (src : Entry) :
    (doMessageRequeue st s src).posted = st.posted ∧ (doMessageRequeue st s src).sending = st.sending ∧
    ∃ x, (doMessageRequeue st s src).main = st.main ++ x := by
  unfold doMessageRequeue
  simp only
  split
  · exact ⟨rfl, rfl, _, rfl⟩
  · exact ⟨rfl, rfl, [], (List.append_nil _).symm⟩

theorem drainStep_frame (st : State) :
    (drainStep st).posted = st.posted ∧ (drainStep st).sending = st.sending ∧ ∃ x, (drainStep st).main = st.main ++ x := by
  unfold drainStep
  split
  · exact ⟨rfl, rfl, [], (List.append_nil _).symm⟩
  · split
    · exact doMessageRequeue_frame st _ _
    · exact ⟨rfl, rfl, [], (List.append_nil _).symm⟩

theorem drainStep_drains {st : State} (h : Inv st) (hid : Idle st) : Drains st (drainStep st) := by
  have hinv := drainStep_inv h hid.unhurried
  obtain ⟨hpost, hsend, x, hx⟩ := drainStep_frame st
  refine ⟨hinv, fun s => by rw [hsend]; exact hid s, hpost, fun s hs => ?_⟩
  obtain ⟨l, hl⟩ := hinv.ring s
  have hpre := hl.prefix
  have hcop : copied (drainStep st) s = copied st s ++ (x.filter fun y => y.1 = some s).map (·.2) := by
    unfold copied
    rw [hx, List.filter_append, List.map_append]
  refine hpre.eq_of_length_le ?_ |>.trans (by rw [hpost])
  rw [hpost, ← hs, hcop, List.length_append]
  omega

/-- The loop over one ring copies what it holds and goes on to the next ring. -/
theorem drain_ring {s : Source} : ∀ (l : List Message) (st : State), Inv st → Idle st → st.pc = some s → RingOK st s l →
    ∃ n, Drains st (drainStep^[n] st) ∧ (drainStep^[n] st).pc = s.next ∧ copied (drainStep^[n] st) s = st.posted s
  | [], st, h, hid, hpc, hl => by
    have heq := drainStep_leave hpc hl (by rw [busy_none (hid s)]; rfl)
    refine ⟨1, drainStep_drains h hid, by rw [Function.iterate_one, heq], ?_⟩
    exact (drainStep_drains h hid).caught s (by rw [hl.posted, List.append_nil])
  | m :: l, st, h, hid, hpc, hl => by
    have hd := drainStep_drains h hid
    have heq := drainStep_requeue hpc hl
    have hpc' : (drainStep st).pc = some s := by rw [heq]; exact hpc
    have hcop : copied (drainStep st) s = copied st s ++ [m] := by
      have := copied_writeMain st (some s) m s
      rw [if_pos rfl] at this
      rw [← this, heq]; rfl
    -- the ring holds the rest
    obtain ⟨l', hl'⟩ := hd.inv.ring s
    have hll : l' = l := by
      have hp := hl'.posted
      rw [hd.posted, hl.posted, hcop, List.append_assoc] at hp
      simpa using hp.symm
    subst hll
    obtain ⟨n, h1, h2, h3⟩ := drain_ring l' (drainStep st) hd.inv hd.idle hpc' hl'
    refine ⟨n + 1, hd.trans h1, h2, ?_⟩
    rw [Function.iterate_succ_apply, h3, hd.posted]

/-- The place of a ring in the order of the loops. -/
def Source.rank : Source → Nat
  | .player i => i
  | .oob => maxPlayer

theorem Source.rank_next {s s' : Source} (h : s.next = some s') : s'.rank = s.rank + 1 := by
  cases s with
  | oob => cases h
  | player i =>
    simp only [Source.next] at h
    by_cases hi : i.val + 1 < maxPlayer
    · rw [dif_pos hi] at h; cases h; rfl
    · rw [dif_neg hi] at h
      cases h
      have := i.isLt
      simp only [Source.rank]
      omega

theorem Source.next_none {s : Source} (h : s.next = none) : s.rank = maxPlayer := by
  cases s with
  | oob => rfl
  | player i =>
    simp only [Source.next] at h
    split at h <;> simp at h

theorem Source.rank_le (s : Source) : s.rank ≤ maxPlayer := by
  cases s with
  | oob => exact le_refl _
  | player i => exact i.isLt.le

theorem Source.rank_inj {s s' : Source} (h : s.rank = s'.rank) : s = s' := by
  cases s with
  | oob =>
    cases s' with
    | oob => rfl
    | player j => exact absurd h.symm j.isLt.ne
  | player i =>
    cases s' with
    | oob => exact absurd h i.isLt.ne
    | player j => exact congrArg _ (Fin.ext h)

/-- From a ring on, the loops copy what the rings hold and the function is left. -/
theorem drain_rest : ∀ (k : Nat) (st : State) (s : Source), s.rank + k = maxPlayer → Inv st → Idle st → st.pc = some s →
    ∃ n, Drains st (drainStep^[n] st) ∧ (drainStep^[n] st).pc = none ∧
      ∀ s', s.rank ≤ s'.rank → copied (drainStep^[n] st) s' = st.posted s'
  | k, st, s, hk, h, hid, hpc => by
    obtain ⟨l, hl⟩ := h.ring s
    obtain ⟨n, hd, hn, hs⟩ := drain_ring l st h hid hpc hl
    cases hnext : s.next with
    | none =>
      refine ⟨n, hd, by rw [hn, hnext], fun s' hs' => ?_⟩
      have hle := s'.rank_le
      have hr := Source.next_none hnext
      have : s' = s := Source.rank_inj (by omega)
      rw [this]; exact hs
    | some t =>
      have hr := Source.rank_next hnext
      have hle := t.rank_le
      cases k with
      | zero => omega
      | succ k =>
        obtain ⟨n', hd', hn', hs'⟩ := drain_rest k (drainStep^[n] st) t (by omega) hd.inv hd.idle (by rw [hn, hnext])
        rw [← Function.iterate_add_apply] at hd' hn' hs'
        refine ⟨n' + n, hd.trans hd', hn', fun r hrr => ?_⟩
        by_cases hrs : r = s
        · subst hrs
          rw [← hd.posted]
          exact hd'.caught r (by rw [hd.posted]; exact hs)
        · have : r.rank ≠ s.rank := fun he => hrs (Source.rank_inj he)
          have := hs' r (by omega)
          rwa [hd.posted] at this

/-- A drain of all the rings, started between two drains with no post under way, copies everything. -/
theorem drain_all {st : State} (h : Inv st) (hid : Idle st) (hpc : st.pc = none) :
    ∃ n, (drainStep^[n] st).pc = none ∧ ∀ s, copied (drainStep^[n] st) s = st.posted s := by
  have hd := drainStep_drains h hid
  have hpc' : (drainStep st).pc = some (.player ⟨0, by decide⟩) := by unfold drainStep; rw [hpc]
  obtain ⟨n, -, hn, hs⟩ := drain_rest maxPlayer (drainStep st) _ (by rfl) hd.inv hd.idle hpc'
  refine ⟨n + 1, hn, fun s => ?_⟩
  rw [Function.iterate_succ_apply, hs s (Nat.zero_le _), hd.posted]

/-! ## Runs -/

/-- Each source's messages have been copied to the main ring at most once and in the order posted;
a ring the daemon finds empty has had all of them copied; and the daemon has read each ring's own
entries only. When every post is complete, the next drain copies the rest. -/
structure Delivered (st : State) : Prop where
  order : ∀ s, copied st s <+: st.posted s
  complete : ∀ s, st.cursor s = (st.index s + 1) % maxUplink → copied st s = st.posted s
  reads : ∀ r ∈ st.reads, r.1.Owns r.2
  next : Idle st → st.pc = none → ∃ n, (drainStep^[n] st).pc = none ∧ ∀ s, copied (drainStep^[n] st) s = st.posted s

theorem Inv.delivered {st : State} (h : Inv st) : Delivered st := by
  refine ⟨fun s => ?_, fun s hs => ?_, h.reads, drain_all h⟩
  · obtain ⟨l, hl⟩ := h.ring s
    exact hl.prefix
  · obtain ⟨l, hl⟩ := h.ring s
    have hnil : l = [] := by
      have hc := hl.cursor
      have hr := hl.room
      have hsince := hl.since
      rw [hl.index] at hs
      unfold maxUplink at *
      exact List.eq_nil_of_length_eq_zero (by omega)
    rw [hl.posted, hnil, List.append_nil]

/-- In a run from indices that are not at the end of their rings, in which the daemon passes no
entry whose post is under way, every message is delivered once and in order. -/
theorem delivered_of_clean_run {st0 st : State} {ops : List Op} (h0 : ∀ s, st0.index s < maxUplink - 1)
    (h : Run Op.clean step (doMessageForceDaemon st0) ops st) : Delivered st :=
  (Run.inv step_inv h (forceDaemon_inv h0)).delivered

/-- Player 0 posts a message that the daemon then copies. -/
theorem delivered_post_then_drain :
    let c : Call := ⟨0, 0x08, "", 0, "%s", "hi"⟩
    let p : Source := .player ⟨0, by decide⟩
    Delivered (drainStep (drainStep (postValid (postFill (postAdvance (doMessageForceDaemon default) p c) p) p))) := by
  intro c p
  refine @delivered_of_clean_run default _ [.advance p c, .fill p, .valid p, .drain, .drain]
    (fun _ => show 0 < maxUplink - 1 by decide) ?_
  refine .cons ⟨⟨rfl, by decide⟩, nofun⟩ (.cons ⟨trivial, nofun⟩ (.cons ⟨trivial, nofun⟩ (.cons ⟨trivial, fun _ => ?_⟩
    (.cons ⟨trivial, fun _ => ?_⟩ (.nil _)))))
  · intro s hs; cases hs
  · intro s hs q hq
    cases hs
    cases hq

/-- A message is lost when the drain passes its entry before it is valid, and a drain that starts
with an index at the end of its ring reads an entry of the next player. -/
theorem not_delivered_in_every_run :
    (∃ st0 ops st, (∀ s, st0.index s < maxUplink) ∧ Run Op.ok step (doMessageForceDaemon st0) ops st ∧
      ∃ s, st.cursor s = (st.index s + 1) % maxUplink ∧ st.sending s = none ∧ copied st s ≠ st.posted s) ∧
    (∃ st0 ops st, (∀ s, st0.index s < maxUplink) ∧ Run Op.ok step (doMessageForceDaemon st0) ops st ∧
      ∃ r ∈ st.reads, ¬ r.1.Owns r.2) := by
  let p : Source := .player ⟨0, by decide⟩
  let c : Call := ⟨0, 0x08, "", 0, "%s", "hi"⟩
  constructor
  · refine ⟨default, [.advance p c, .drain, .drain, .fill p, .valid p], _, fun _ => show 0 < maxUplink by decide,
      .cons ⟨rfl, by decide⟩ (.cons trivial (.cons trivial (.cons trivial (.cons trivial (.nil _))))), p, ?_⟩
    decide
  · refine ⟨{ (default : State) with index := fun _ => maxUplink - 1 }, [.drain, .drain], _,
      fun _ => show maxUplink - 1 < maxUplink by decide, .cons trivial (.cons trivial (.nil _)),
      (p, .uplink maxUplink), by decide, ?_⟩
    simp [Source.Owns, p]

end Netrek.Uplink
