/-
The sampling of shields and cloaks covers every slot: what one call of `updateShips` sends of the flags of all
players, and for which features the upper sixteen slots are forgotten.
-/
import NetrekServer.Lib.Sweep
import NetrekServer.Short.Headers
import NetrekServer.Short.Ships

namespace Netrek.Short

open Netrek.Lib

/-! ## Two bits for each player -/

/-- The two bits of a player in a word of flags. -/
def twoBits (f : Word) (i : Nat) : BitVec 2 := (f >>> (2 * i)).setWidth 2

/-- Each slot has two bits of a word of flags. -/
theorem getLsbD_flags (g : Nat → BitVec 2) (n b : Nat) (hb : b < 32) :
    ((List.range n).foldl (fun (new : Word) i => new ||| ((g i).setWidth 32 <<< (2 * i))) 0).getLsbD b =
      (decide (b < 2 * n) && (g (b / 2)).getLsbD (b % 2)) := by
  induction n with
  | zero => simp
  | succ n ih =>
    rw [List.range_succ, List.foldl_append, List.foldl_cons, List.foldl_nil, BitVec.getLsbD_or, ih]
    simp only [BitVec.getLsbD_shiftLeft, BitVec.getLsbD_setWidth, hb, decide_true, Bool.true_and]
    by_cases hlow : b < 2 * n
    · simp [hlow, show b < 2 * (n + 1) by omega]
    · by_cases hhigh : b < 2 * (n + 1)
      · have hdiv : b / 2 = n := by omega
        have hmod : b % 2 = b - 2 * n := by omega
        simp [hlow, hhigh, hdiv, hmod, show b - 2 * n < 32 by omega]
      · have hout : (g n).getLsbD (b - 2 * n) = false := BitVec.getLsbD_of_ge _ _ (by omega)
        simp [hlow, hhigh, hout]

/-- The flags of a block are those of its players. -/
theorem twoBits_flagWord (s : VScreen) (offset i : Nat) (hi : i < 16) :
    twoBits (s.flagWord offset) i = s.nFlags (Fin.ofNat maxPlayer (16 * offset + i)) := by
  unfold twoBits VScreen.flagWord
  ext b hb
  have hflags := getLsbD_flags (fun i => s.nFlags (Fin.ofNat maxPlayer (16 * offset + i))) 16 (2 * i + b) (by omega)
  have hdiv : (2 * i + b) / 2 = i := by omega
  have hmod : (2 * i + b) % 2 = b := by omega
  rw [BitVec.getElem_setWidth, BitVec.getLsbD_ushiftRight, hflags, hdiv, hmod]
  simp [show 2 * i + b < 2 * 16 by omega, hb]

/-! ## What the loop keeps -/

/-- Packets that carry no sampled flags. -/
def Plain (packet : List UInt8) : Prop := packet.head? ≠ some spSPlayer ∧ packet.head? ≠ some spFlagsAll

theorem plain_cons (t : UInt8) (h : t ≠ spSPlayer ∧ t ≠ spFlagsAll) (rest : List UInt8) : Plain (t :: rest) :=
  ⟨fun he => h.1 (Option.some.inj he), fun he => h.2 (Option.some.inj he)⟩

/-- Shadows change, and packets of other kinds are sent. -/
structure Quiet (s s' : Ships) : Prop where
  full : s'.fullDirection = s.fullDirection
  flagsAll : s'.flagsAll = s.flagsAll
  screen : ∃ l, s'.toVScreen = { s.toVScreen with sent := s.sent ++ l } ∧ ∀ p ∈ l, Plain p

namespace Quiet

variable {s s' s'' : Ships}

theorem same (hv : s'.toVScreen = s.toVScreen) (hf : s'.fullDirection = s.fullDirection) (ha : s'.flagsAll = s.flagsAll) :
    Quiet s s' := by
  refine ⟨hf, ha, [], ?_, fun _ h => absurd h List.not_mem_nil⟩
  rw [hv, List.append_nil]

theorem refl (s : Ships) : Quiet s s := same rfl rfl rfl

theorem trans (h : Quiet s s') (h' : Quiet s' s'') : Quiet s s'' := by
  obtain ⟨l, hl, hp⟩ := h.screen
  obtain ⟨l', hl', hp'⟩ := h'.screen
  refine ⟨h'.full.trans h.full, h'.flagsAll.trans h.flagsAll, l ++ l', ?_, ?_⟩
  · rw [hl', hl, List.append_assoc]
  · intro p hmem
    rcases List.mem_append.1 hmem with hm | hm
    · exact hp p hm
    · exact hp' p hm

/-- One packet is sent. -/
theorem send (h : Quiet s s') {packet : List UInt8} (hp : Plain packet) : Quiet s (s'.sendPacket packet) := by
  refine h.trans ⟨rfl, rfl, [packet], rfl, ?_⟩
  rintro p hmem
  rw [List.mem_singleton.1 hmem]
  exact hp

end Quiet

variable {s s' : Ships}

theorem quiet_sndHostile (s : Ships) (i : Slot) (howmuch : HowMuch) : Quiet s (s.sndHostile i howmuch) := by
  unfold Ships.sndHostile
  dsimp only
  generalize (if howmuch = .all then (s.mem.players i).swar else (s.mem.players i).swar &&& s.player.team) = war
  generalize (if howmuch = .all then (s.mem.players i).hostile else (s.mem.players i).hostile &&& s.player.team) = hostile
  split
  · refine Quiet.send ?_ (plain_cons spHostile (by decide) _)
    exact Quiet.same rfl rfl rfl
  · exact Quiet.refl s

theorem quiet_sndPlayerInfo (s : Ships) (i : Slot) : Quiet s (s.sndPlayerInfo i) := by
  unfold Ships.sndPlayerInfo
  extract_lets pl same team
  clear_value same
  cases same
  · refine Quiet.send ?_ (plain_cons spPlayerInfo (by decide) _)
    exact Quiet.same rfl rfl rfl
  · exact Quiet.refl s

theorem quiet_sndKills (s : Ships) (i : Slot) : Quiet s (s.sndKills i) := by
  unfold Ships.sndKills
  dsimp only
  split
  · split
    · exact Quiet.same rfl rfl rfl
    · refine Quiet.send ?_ (plain_cons spKills (by decide) _)
      exact Quiet.same rfl rfl rfl
  · exact Quiet.refl s

theorem quiet_sndFlags (s : Ships) (i : Slot) (howmuch : HowMuch) : Quiet s (s.sndFlags i howmuch) := by
  unfold Ships.sndFlags
  extract_lets pl tractors observes tractor mask masked
  by_cases hsame : s.clientFlags i = (masked, tractor)
  · rw [if_pos hsame]
    exact Quiet.refl s
  · rw [if_neg hsame]
    refine Quiet.send ?_ (plain_cons spFlags (by decide) _)
    exact Quiet.same rfl rfl rfl

theorem quiet_sndPStatus (s : Ships) (i : Slot) : Quiet s (s.sndPStatus i).1 := by
  unfold Ships.sndPStatus
  dsimp only
  split
  · refine Quiet.send ?_ (plain_cons spPStatus (by decide) _)
    exact Quiet.same rfl rfl rfl
  · exact Quiet.refl s

theorem quiet_vanish (s : Ships) (i : Slot) (dead : Bool) : Quiet s (s.vanish i dead) := by
  unfold Ships.vanish
  split
  · exact Quiet.same rfl rfl rfl
  · exact Quiet.same rfl rfl rfl

/-- `updtPlayer` changes what the client is taken to know. -/
theorem quiet_updtPlayer (s : Ships) (i : Slot) (howmuch : HowMuch) : Quiet s (s.updtPlayer i howmuch).1 := by
  unfold Ships.updtPlayer
  extract_lets pl cpl dead
  clear_value dead
  split
  · split
    · exact Quiet.refl s
    · exact quiet_vanish s i dead
  split
  · split
    · exact quiet_vanish s i true
    split
    · exact Quiet.refl s
    split
    · exact Quiet.same rfl rfl rfl
    · exact Quiet.same rfl rfl rfl
  · exact Quiet.refl s

/-- The kills go in a packet of another kind. -/
theorem quiet_sendVKills (s : Ships) : Quiet s s.sendVKills := by
  unfold Ships.sendVKills
  split
  · extract_lets v size count
    have hcount : 0 < count := by
      show 0 < if size % 4 ≠ 0 then size + (4 - size % 4) else size
      have hsize : 0 < size := Nat.lt_of_lt_of_le (by decide) (Nat.le_add_right 2 _)
      split <;> omega
    obtain ⟨rest, hrest⟩ : ∃ rest, v.read 0 count = spSKills :: rest := by
      obtain ⟨n, hn⟩ := Nat.exists_eq_add_of_lt hcount
      have hone : v.read 0 1 = [spSKills] := by
        have hboth := Cells.read_write_self s.clientVKills 0 [spSKills, UInt8.ofNat s.clientVKillsCount]
        exact congrArg (List.take 1) hboth
      refine ⟨v.read 1 n, ?_⟩
      rw [hn, Nat.zero_add, Nat.add_comm, Cells.read_add, hone]
      rfl
    have hplain : Plain (v.read 0 count) := hrest ▸ plain_cons spSKills (by decide) rest
    exact ⟨rfl, rfl, [v.read 0 count], rfl, fun p hp => List.mem_singleton.1 hp ▸ hplain⟩
  · exact Quiet.refl s

/-! ## The states of the players -/

/-- The ship is there, explodes, or is dead. -/
def active (pl : Player) : Bool := pl.status == .palive || pl.status == .pexplode || pl.status == .pdead

/-- Dead, cloaked, shields up or shields down. -/
def stateBits (pl : Player) : BitVec 2 := if pl.status = .palive then Ships.aliveFlags pl else flagsAllDead

/-! ## Records collected -/

namespace Collected

variable {v v' : VScreen} {ps : List PlayerSpacket}

/-- What was collected is the same for the screen as it is now. -/
theorem rebase (h : Collected v ps v') : Collected v' ps v' := by
  have hothers : v'.others ps = v.others ps := by
    unfold VScreen.others
    rw [h.me]
  have hown : v'.own ps = v.own ps := by
    unfold VScreen.own
    rw [h.me]
  refine ⟨rfl, rfl, rfl, rfl, rfl, rfl, ?_, ?_, ?_, ?_, fun p hp => ?_⟩
  · rw [hothers]
    exact h.count
  · rw [hothers]
    exact h.packets
  · rw [hothers, record_congr h.mem h.me]
    exact h.records
  · rw [hown]
    exact h.big
  · rw [ownBytes_congr h.sendShort]
    exact h.own p (hown ▸ hp)

/-- Other packets and flags do not matter. -/
theorem move (h : Collected v ps v) (f : Slot → BitVec 2) (n : Nat) (l : List (List UInt8)) :
    Collected { v with nFlags := f, highestActivePlayer := n, sent := l } ps
      { v with nFlags := f, highestActivePlayer := n, sent := l } :=
  ⟨rfl, rfl, rfl, rfl, rfl, rfl, h.count, h.packets, h.records, h.big, h.own⟩

end Collected

/-! ## The loop -/

/-- The state of the loop when `n` players have been sampled, and at most `m` positions sent. -/
structure Sampled (s₀ : Ships) (n m : Nat) (s : Ships) : Prop where
  mem : s.mem = s₀.mem
  me : s.me = s₀.me
  sendShort : s.sendShort = s₀.sendShort
  full : s.fullDirection = s₀.fullDirection
  flagsAll : s.flagsAll = s₀.flagsAll
  sampled : 1 < s₀.sendShort → ∀ i : Slot, i.val < n → active (s₀.mem.players i) →
    s.nFlags i = stateBits (s₀.mem.players i) ∧ i.val ≤ s.highestActivePlayer
  highest : s.highestActivePlayer < 32
  unsampled : ¬1 < s₀.sendShort → s.highestActivePlayer = 0
  collected : ∃ ps, Collected s.toVScreen ps s.toVScreen ∧ ps.length ≤ m ∧
    (s₀.sendShort = 0 ∨ s₀.fullDirection → ps = [])
  sent : ∃ l, s.sent = s₀.sent ++ l ∧ ∀ p ∈ l, Plain p

namespace Sampled

variable {s₀ : Ships} {n m : Nat}

theorem begin (s : Ships) : Sampled s.begin 0 0 s.begin := by
  refine ⟨rfl, rfl, rfl, rfl, rfl, fun _ i hi => absurd hi (Nat.not_lt_zero _), Nat.zero_lt_succ 31,
    fun _ => rfl,
    ⟨[], ?_, Nat.le_refl 0, fun _ => rfl⟩, [], (List.append_nil _).symm, fun p hp => absurd hp List.not_mem_nil⟩
  exact ((Collected.start s.toVScreen).rebase.move _ 0 _)

/-- What happens beside the samples leaves them. -/
theorem quiet (h : Sampled s₀ n m s) (hq : Quiet s s') : Sampled s₀ n m s' := by
  obtain ⟨l, hl, hp⟩ := hq.screen
  obtain ⟨ps, hps, hlen, hnone⟩ := h.collected
  obtain ⟨k, hk, hkp⟩ := h.sent
  have hmem : s'.mem = s.mem := by rw [hl]
  have hme : s'.me = s.me := by rw [hl]
  have hsend : s'.sendShort = s.sendShort := by rw [hl]
  have hflags : s'.nFlags = s.nFlags := by rw [hl]
  have hhigh : s'.highestActivePlayer = s.highestActivePlayer := by rw [hl]
  have hsent : s'.sent = s.sent ++ l := by rw [hl]
  refine ⟨hmem.trans h.mem, hme.trans h.me, hsend.trans h.sendShort, hq.full.trans h.full, hq.flagsAll.trans h.flagsAll,
    ?_, hhigh ▸ h.highest, fun hs => hhigh.trans (h.unsampled hs), ⟨ps, ?_, hlen, hnone⟩, k ++ l, ?_, ?_⟩
  · rw [hflags, hhigh]
    exact h.sampled
  · rw [hl]
    exact hps.move _ _ _
  · rw [hsent, hk, List.append_assoc]
  · intro p hmem
    rcases List.mem_append.1 hmem with hm | hm
    · exact hkp p hm
    · exact hp p hm

theorem weaken (h : Sampled s₀ n m s) : Sampled s₀ n (m + 1) s := by
  obtain ⟨ps, hps, hlen, hnone⟩ := h.collected
  exact { h with collected := ⟨ps, hps, Nat.le_succ_of_le hlen, hnone⟩ }

/-- Two bits for one more player. -/
theorem sample {i : Slot} (h : Sampled s₀ i.val m s) (hs : 1 < s₀.sendShort) (bits : BitVec 2) (n : Nat)
    (hn : n = i.val ∨ n = s.highestActivePlayer ∧ active (s₀.mem.players i) = false)
    (hbits : active (s₀.mem.players i) → bits = stateBits (s₀.mem.players i)) :
    Sampled s₀ (i.val + 1) m { s with highestActivePlayer := n, nFlags := Function.update s.nFlags i bits } := by
  have hi : i.val < 32 := i.isLt
  obtain ⟨ps, hps, hlen, hnone⟩ := h.collected
  refine ⟨h.mem, h.me, h.sendShort, h.full, h.flagsAll, fun _ j hj hactive => ?_, ?_, fun hns => absurd hs hns,
    ⟨ps, hps.move _ n _, hlen, hnone⟩, h.sent⟩
  · show Function.update s.nFlags i bits j = _ ∧ j.val ≤ n
    by_cases hji : j = i
    · subst hji
      rw [Function.update_self]
      refine ⟨hbits hactive, ?_⟩
      rcases hn with hn | ⟨-, hna⟩
      · exact hn.ge
      · rw [hna] at hactive
        exact absurd hactive Bool.false_ne_true
    · have hlt : j.val < i.val := by
        have hne : j.val ≠ i.val := fun he => hji (Fin.ext he)
        omega
      obtain ⟨hflags, hhigh⟩ := h.sampled hs j hlt hactive
      rw [Function.update_of_ne hji]
      refine ⟨hflags, ?_⟩
      rcases hn with hn | ⟨hn, -⟩ <;> omega
  · show n < 32
    have hhighest := h.highest
    rcases hn with hn | ⟨hn, -⟩ <;> omega

/-- One more player is sampled. -/
theorem sampleFlags {i : Slot} (h : Sampled s₀ i.val m s) : Sampled s₀ (i.val + 1) m (s.sampleFlags i) := by
  have hpl : s.mem.players i = s₀.mem.players i := congrFun (congrArg Memory.players h.mem) i
  unfold Ships.sampleFlags
  dsimp only
  rw [hpl]
  by_cases hcond : 1 < s.sendShort ∧ ((s₀.mem.players i).status ≠ .pobserv ∨ i = s.me)
  · rw [if_pos hcond]
    have hs : 1 < s₀.sendShort := h.sendShort ▸ hcond.1
    have hkeep : ∀ t : Ships, Sampled s₀ (i.val + 1) m t → Sampled s₀ (i.val + 1) m
        (if t.fullDirection && !t.flagsAll then t
        else
          { t with clientFlags := Function.update t.clientFlags i (((t.clientFlags i).1 &&& ~~~(pfShield ||| pfCloak)) |||
              ((s₀.mem.players i).flags &&& (pfShield ||| pfCloak)), (t.clientFlags i).2) }) := by
      intro t ht
      split
      · exact ht
      · exact ht.quiet (Quiet.same rfl rfl rfl)
    refine hkeep _ ?_
    cases hstatus : (s₀.mem.players i).status with
    | palive => exact h.sample hs _ _ (Or.inl rfl) fun _ => by rw [stateBits, if_pos hstatus]
    | pobserv =>
      exact h.sample hs _ _ (Or.inl rfl) fun ha => by
        rw [active, hstatus] at ha
        exact absurd ha (by decide)
    | pexplode => exact h.sample hs _ _ (Or.inl rfl) fun _ => by rw [stateBits, if_neg (by rw [hstatus]; decide)]; rfl
    | pdead => exact h.sample hs _ _ (Or.inl rfl) fun _ => by rw [stateBits, if_neg (by rw [hstatus]; decide)]; rfl
    | pfree =>
      have hna : active (s₀.mem.players i) = false := by rw [active, hstatus]; rfl
      exact h.sample hs _ s.highestActivePlayer (Or.inr ⟨rfl, hna⟩) fun ha => absurd (hna.symm.trans ha) Bool.false_ne_true
    | poutfit =>
      have hna : active (s₀.mem.players i) = false := by rw [active, hstatus]; rfl
      exact h.sample hs _ s.highestActivePlayer (Or.inr ⟨rfl, hna⟩) fun ha => absurd (hna.symm.trans ha) Bool.false_ne_true
  -- nothing is sampled: in S_P2 this is an observer
  · rw [if_neg hcond]
    refine { h with sampled := fun hs j hj hactive => ?_ }
    have hne : j.val ≠ i.val := by
      intro he
      rw [Fin.ext he] at hactive
      refine hcond ⟨h.sendShort ▸ hs, Or.inl fun ho => ?_⟩
      rw [active, ho] at hactive
      exact absurd hactive (by decide)
    exact h.sampled hs j (by omega) hactive

/-- A position is sent at most. -/
theorem sndPlayer (h : Sampled s₀ n m s) (i : Slot) (howmuch : HowMuch) : Sampled s₀ n (m + 1) (s.sndPlayer i howmuch) := by
  unfold Ships.sndPlayer
  extract_lets r t
  have ht : Sampled s₀ n m t := h.quiet (quiet_updtPlayer s i howmuch)
  split
  · split
    -- a record behind the others
    · rename_i hrec
      obtain ⟨ps, hps, hlen, hnone⟩ := ht.collected
      have hstep := hps.step (t.clientPlayers i)
      refine ⟨hstep.mem.trans ht.mem, hstep.me.trans ht.me, hstep.sendShort.trans ht.sendShort, ht.full, ht.flagsAll,
        ?_, ?_, ?_, ⟨ps ++ [t.clientPlayers i], hstep.rebase, ?_, fun hno => ?_⟩, ?_⟩
      · intro hs j hj hactive
        exact ⟨(congrFun hstep.flags j).trans (ht.sampled hs j hj hactive).1, hstep.highest ▸ (ht.sampled hs j hj hactive).2⟩
      · exact hstep.highest ▸ ht.highest
      · exact fun hs => hstep.highest.trans (ht.unsampled hs)
      · rw [List.length_append, List.length_singleton]
        omega
      · rcases hno with hno | hno
        · exact absurd (ht.sendShort.trans hno) hrec.1
        · exact absurd (ht.full.trans hno) (by simpa using hrec.2)
      · obtain ⟨l, hl, hp⟩ := ht.sent
        exact ⟨l, hstep.sent.trans hl, hp⟩
    · split
      · refine (ht.quiet ?_).weaken
        exact Quiet.send (Quiet.refl t) (plain_cons spPlayer (by decide) _)
      · exact ht.weaken
  · exact ht.weaken

theorem position (h : Sampled s₀ n m s) (i : Slot) (update : Bool) : Sampled s₀ n (m + 1) (s.position i update) := by
  unfold Ships.position
  extract_lets pl cpl due
  clear_value due
  split
  · exact h.weaken
  split
  · split
    · exact h.sndPlayer i .little
    · exact h.sndPlayer i .many
  split
  · exact h.sndPlayer i .most
  · exact h.sndPlayer i .all

/-- One turn of the loop over the players. -/
theorem ship {i : Slot} (h : Sampled s₀ i.val i.val s) : Sampled s₀ (i.val + 1) (i.val + 1) (s.ship i) := by
  unfold Ships.ship
  extract_lets s₁ s₂ s₃ s₄ r update s₅ s₆ s₇ s₈
  have h₃ : Sampled s₀ i.val i.val s₃ :=
    ((h.quiet (quiet_sndHostile s i _)).quiet (quiet_sndPlayerInfo s₁ i)).quiet (quiet_sndKills s₂ i)
  have hr : Sampled s₀ (i.val + 1) i.val r.1 := h₃.sampleFlags.quiet (quiet_sndPStatus s₄ i)
  have h₆ : Sampled s₀ (i.val + 1) i.val s₆ := by
    unfold s₆
    split
    · exact hr.quiet (Quiet.same rfl rfl rfl)
    · exact hr
  have hflags : ∀ howmuch, Sampled s₀ (i.val + 1) i.val (if i ≠ s₆.me then s₆.sndFlags i howmuch else s₆) := by
    intro howmuch
    split
    · exact h₆.quiet (quiet_sndFlags s₆ i howmuch)
    · exact h₆
  split
  · exact (hflags .most).sndPlayer i .least
  · exact (hflags .all).position i update

/-- All players are sampled at the end of the loop. -/
theorem loop (s : Ships) : Sampled s.begin 32 32 ((List.finRange maxPlayer).foldl Ships.ship s.begin) :=
  foldl_finRange Ships.ship (fun n t => Sampled s.begin n n t) (fun _ _ h => h.ship) (begin s)

end Sampled

end Netrek.Short
