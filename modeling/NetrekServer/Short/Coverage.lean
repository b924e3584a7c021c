/-
The flags of all players: what one call of `updateShips` sends of the shields and cloaks of the players, and for which
features the upper sixteen slots are forgotten.
-/
import NetrekServer.Short.Sampling

namespace Netrek.Short

open Netrek.Lib

/-! ## Reading the blocks -/

/-- The blocks of flags in a packet, each with its number. -/
def blocksOf (sendShort : Nat) (packet : List UInt8) : List (Nat × Word) :=
  if packet.head? = some spSPlayer then readFlags sendShort packet
  else if packet.head? = some spFlagsAll then [((packet.getD 1 0).toNat, Network.wordAt packet 4)]
  else []

def allBlocks (sendShort : Nat) (packets : List (List UInt8)) : List (Nat × Word) := packets.flatMap (blocksOf sendShort)

theorem blocksOf_plain {packet : List UInt8} (h : Plain packet) (k : Nat) : blocksOf k packet = [] := by
  unfold blocksOf
  rw [if_neg h.1, if_neg h.2]

theorem allBlocks_plain {l : List (List UInt8)} (h : ∀ p ∈ l, Plain p) (k : Nat) : allBlocks k l = [] := by
  rw [allBlocks, List.flatMap_eq_nil_iff]
  exact fun p hp => blocksOf_plain (h p hp) k

theorem blocksOf_flagPacket (v : VScreen) {k : Nat} (hk : 1 < k) : blocksOf k v.flagPacket = [(1, v.flagWord 1)] := by
  have hword : Network.wordAt v.flagPacket 4 = v.flagWord 1 := by
    have h := Network.wordAt_append [spSPlayer, 64, 1, 1] [] (v.flagWord 1)
    rwa [List.append_nil] at h
  have hhead : v.flagPacket.head? = some spSPlayer := rfl
  have hsmall : isSmall v.flagPacket = true := by
    show (64 : UInt8).toNat.testBit 6 = true
    decide
  unfold blocksOf readFlags
  rw [if_pos hhead, if_pos hk, if_pos hsmall]
  show [((1 : Nat), Network.wordAt v.flagPacket 4)] = _
  rw [hword]

variable {s s' : Ships}

theorem blocksOf_carries {v : VScreen} {own : Option PlayerSpacket} {others : List PlayerSpacket} {packet : List UInt8}
    (h : Carries v own others packet) :
    blocksOf v.sendShort packet = v.flagBlocks own.isSome ∧ packet.head? = some spSPlayer := by
  have hread := h.read
  unfold readPlayers at hread
  split at hread
  · rename_i hhead
    refine ⟨?_, hhead.1⟩
    unfold blocksOf
    rw [if_pos hhead.1]
    exact congrArg PlayersRead.flags (Option.some.inj hread)
  · exact absurd hread.symm (Option.some_ne_none _)

/-! ## Right blocks -/

/-- The block has the states of its players. -/
def Good (s : Ships) (b : Nat × Word) : Prop :=
  ∀ i : Slot, active (s.mem.players i) → i.val / 16 = b.1 → twoBits b.2 (i.val % 16) = stateBits (s.mem.players i)

theorem slot_eq {i : Slot} {offset : Nat} (hi : i.val / 16 = offset) :
    Fin.ofNat maxPlayer (16 * offset + i.val % 16) = i := by
  refine Fin.ext ?_
  show (16 * offset + i.val % 16) % maxPlayer = i.val
  rw [← hi, Nat.div_add_mod]
  exact Nat.mod_eq_of_lt i.isLt

theorem good_flagWord {f : VScreen} {offset : Nat}
    (h : ∀ i : Slot, i.val / 16 = offset → active (s.mem.players i) → f.nFlags i = stateBits (s.mem.players i)) :
    Good s (offset, f.flagWord offset) := by
  rintro i hactive (hi : i.val / 16 = offset)
  rw [twoBits_flagWord f offset _ (Nat.mod_lt _ (by decide)), slot_eq hi]
  exact h i hi hactive

/-! ## The records -/

/-- Sending the records leaves the flags alone. -/
theorem sendVPlayers_keep (v : VScreen) :
    ∃ b l, v.sendVPlayers = { v with clientVPlayers := b, sent := v.sent ++ l } := by
  unfold VScreen.sendVPlayers VScreen.sendRecords VScreen.emit
  dsimp only
  split
  · split
    · split
      · exact ⟨_, _, congrArg _ (List.append_assoc _ _ _)⟩
      · exact ⟨_, _, rfl⟩
    · exact ⟨_, _, rfl⟩
  split
  · split
    · split
      · exact ⟨_, _, rfl⟩
      · exact ⟨_, _, rfl⟩
    · exact ⟨_, _, rfl⟩
  · exact ⟨_, [], by rw [List.append_nil]⟩

/-- What the records' packets have of the flags. -/
theorem sendVPlayers_blocks {s₀ : Ships} (h : Sampled s₀ 32 32 s) {b : Cells UInt8} {l : List (List UInt8)}
    (hl : s.toVScreen.sendVPlayers = { s.toVScreen with clientVPlayers := b, sent := s.sent ++ l }) :
    (∀ p ∈ l, p.head? = some spSPlayer) ∧ (s₀.sendShort = 0 ∨ s₀.fullDirection → l = []) ∧
      (1 < s.sendShort → (∀ b ∈ allBlocks s.sendShort l, b = (0, s.flagWord 0) ∨ b = (1, s.flagWord 1)) ∧
        (l ≠ [] → (0, s.flagWord 0) ∈ allBlocks s.sendShort l ∧
          (s.upperActive → (1, s.flagWord 1) ∈ allBlocks s.sendShort l))) := by
  obtain ⟨ps, hps, hlen, hnone⟩ := h.collected
  have hfew : (s.others ps).length < 64 := by
    have hle : (s.others ps).length ≤ ps.length := List.length_filter_le _ _
    omega
  have htype : Function.update s.clientVPlayers 0 spSPlayer 0 = spSPlayer := Function.update_self _ _ _
  obtain ⟨hnothing, hsomething⟩ := sendRecords_sent hps.withType htype hfew
  have hsent : s.toVScreen.sendVPlayers.sent = s.sent ++ l := by rw [hl]
  unfold VScreen.sendVPlayers at hsent
  -- one packet with the records, and the one for the upper half when it is due
  by_cases hany : (s.own ps).isSome ∨ s.others ps ≠ []
  · obtain ⟨packet, hcarries, hpacket⟩ := hsomething hany
    rw [hpacket, List.append_assoc, List.append_cancel_left_eq, List.singleton_append] at hsent
    obtain ⟨hblocks, hhead⟩ := blocksOf_carries hcarries
    refine ⟨?_, ?_, ?_⟩
    · rw [← hsent]
      rintro p hp
      rcases List.mem_cons.1 hp with rfl | hp
      · exact hhead
      · split at hp
        · rw [List.mem_singleton.1 hp]
          rfl
        · exact absurd hp List.not_mem_nil
    -- nothing may be sent, so there was nothing to send
    · intro hno
      rw [hnone hno] at hany
      rcases hany with hany | hany
      · exact absurd hany Bool.false_ne_true
      · exact absurd rfl hany
    · intro hs
      have hall : allBlocks s.sendShort l = s.flagBlocks (s.own ps).isSome ++
          if (s.own ps).isSome ∧ 1 < s.sendShort ∧ s.upperActive then [(1, s.flagWord 1)] else [] := by
        rw [← hsent, allBlocks, List.flatMap_cons, hblocks]
        refine congrArg _ ?_
        split
        · rw [List.flatMap_cons, List.flatMap_nil, List.append_nil]
          exact blocksOf_flagPacket _ hs
        · rfl
      rw [hall]
      unfold VScreen.flagBlocks
      cases (s.own ps).isSome <;> cases s.upperActive <;> simp [hs]
  -- nobody has changed
  · rw [not_or, Bool.not_eq_true, Option.isSome_eq_false_iff, Option.isNone_iff_eq_none, not_not] at hany
    rw [hnothing hany.1 hany.2] at hsent
    have hnil : l = [] := List.self_eq_append_right.1 hsent
    subst hnil
    exact ⟨fun p hp => absurd hp List.not_mem_nil, fun _ => rfl, fun _ => ⟨fun b hb => absurd hb List.not_mem_nil,
      fun hne => absurd rfl hne⟩⟩

/-! ## The flags of all -/

/-- What `updateFlagsAll` finds out of a player who is there. -/
theorem sampleAll_eq (s : Ships) (i : Slot) :
    ∃ bits, s.sampleAll i = { s with nFlags := Function.update s.nFlags i bits } ∧
      (active (s.mem.players i) → bits = stateBits (s.mem.players i)) := by
  refine ⟨_, rfl, fun hactive => ?_⟩
  cases hstatus : (s.mem.players i).status with
  | palive =>
    rw [stateBits, if_pos hstatus]
  | pexplode | pdead =>
    rw [stateBits, if_neg (by rw [hstatus]; decide)]
  | pfree | poutfit | pobserv =>
    rw [active, hstatus] at hactive
    exact absurd hactive (by decide)

/-- The loop of `SP_FLAGS_ALL` leaves the right states of the slots it goes through. -/
theorem foldl_sampleAll (slot : Nat → Slot) (l : List Nat) (s : Ships) :
    ∃ f, l.foldl (fun s k => s.sampleAll (slot k)) s = { s with nFlags := f } ∧
      ∀ k ∈ l, active (s.mem.players (slot k)) → f (slot k) = stateBits (s.mem.players (slot k)) := by
  induction l using List.reverseRecOn with
  | nil => exact ⟨s.nFlags, rfl, fun k hk => absurd hk List.not_mem_nil⟩
  | append_singleton l k ih =>
    obtain ⟨f, hf, hright⟩ := ih
    obtain ⟨bits, hbits, hb⟩ := sampleAll_eq { s with nFlags := f } (slot k)
    refine ⟨Function.update f (slot k) bits, ?_, fun j hj hactive => ?_⟩
    · rw [List.foldl_append, hf]
      exact hbits
    · by_cases hjk : slot j = slot k
      · rw [hjk, Function.update_self]
        exact hb (hjk ▸ hactive)
      · rw [Function.update_of_ne hjk]
        rcases List.mem_append.1 hj with hj | hj
        · exact hright j hj hactive
        · exact absurd (congrArg slot (List.mem_singleton.1 hj)) hjk

/-- One packet with a right block. -/
theorem updateFlagsAll_eq (s : Ships) (offset : Nat) :
    ∃ f w, s.updateFlagsAll offset =
        { s with nFlags := f, sent := s.sent ++ [[spFlagsAll, UInt8.ofNat offset, 0, 0] ++ Network.word w] } ∧
      Good s (offset, w) := by
  obtain ⟨f, hf, hright⟩ := foldl_sampleAll (fun k => Fin.ofNat maxPlayer (16 * offset + k)) (List.range 16) s
  refine ⟨f, VScreen.flagWord { s.toVScreen with nFlags := f } offset, ?_, good_flagWord fun i hi hactive => ?_⟩
  · unfold Ships.updateFlagsAll
    dsimp only
    rw [hf]
    rfl
  · have h := hright (i.val % 16) (List.mem_range.2 (Nat.mod_lt _ (by decide)))
    rw [slot_eq hi] at h
    exact h hactive

theorem blocksOf_flagsAll (k offset : Nat) (ho : offset < 256) (w : Word) :
    blocksOf k ([spFlagsAll, UInt8.ofNat offset, 0, 0] ++ Network.word w) = [(offset, w)] := by
  have hw : Network.wordAt ([spFlagsAll, UInt8.ofNat offset, 0, 0] ++ Network.word w) 4 = w := by
    have h := Network.wordAt_append [spFlagsAll, UInt8.ofNat offset, 0, 0] [] w
    rwa [List.append_nil] at h
  have hne : ¬([spFlagsAll, UInt8.ofNat offset, 0, 0] ++ Network.word w).head? = some spSPlayer := by
    show ¬some spFlagsAll = some spSPlayer
    decide
  have hhead : ([spFlagsAll, UInt8.ofNat offset, 0, 0] ++ Network.word w).head? = some spFlagsAll := rfl
  unfold blocksOf
  rw [if_neg hne, if_pos hhead, hw]
  show [((UInt8.ofNat offset).toNat, w)] = _
  rw [UInt8.toNat_ofNat', Nat.mod_eq_of_lt ho]

/-! ## One call -/

/-- The packets of one call of `updateShips`. -/
def newPackets (s : Ships) : List (List UInt8) := s.updateShips.sent.drop s.sent.length

/-- Shields and cloaks are marked as updated. -/
def marks (s : Ships) : Bool := decide (1 < s.sendShort) && !(s.fullDirection && !s.flagsAll)

/-- The blocks have the states of all players. -/
def AllStates (s : Ships) (bs : List (Nat × Word)) : Prop :=
  ∀ i : Slot, active (s.mem.players i) → (∃ f, (i.val / 16, f) ∈ bs) ∧
    ∀ f, (i.val / 16, f) ∈ bs → twoBits f (i.val % 16) = stateBits (s.mem.players i)

/-- If shields and cloaks are marked as updated and an `SP_S_PLAYER` packet is sent, or if any `SP_FLAGS_ALL` packet is
sent, then the blocks of flags that are sent have the states of all players. -/
def Covers (s : Ships) : Prop :=
  ((marks s ∧ ∃ p ∈ newPackets s, p.head? = some spSPlayer) ∨ ∃ p ∈ newPackets s, p.head? = some spFlagsAll) →
    AllStates s (allBlocks s.sendShort (newPackets s))

/-- The upper sixteen slots are forgotten: the highest player who is there is looked for in S_P2 only. -/
def forgets (s : Ships) : Prop :=
  s.flagsAll ∧ s.sendShort ≤ 1 ∧ (s.sendShort ≠ 0 → s.fullDirection) ∧ ∃ i : Slot, 16 ≤ i.val ∧ active (s.mem.players i)

/-- Before the flags of all: the packets so far, and the blocks in them. -/
structure Recorded (s : Ships) (l : List (List UInt8)) (t : Ships) : Prop where
  mem : t.mem = s.mem
  sendShort : t.sendShort = s.sendShort
  full : t.fullDirection = s.fullDirection
  flagsAll : t.flagsAll = s.flagsAll
  sent : t.sent = s.sent ++ l
  other : ∀ p ∈ l, p.head? ≠ some spFlagsAll
  without : s.sendShort = 0 ∨ s.fullDirection → ∀ p ∈ l, Plain p
  good : 1 < s.sendShort → ∀ b ∈ allBlocks s.sendShort l, Good s b
  all : 1 < s.sendShort → (∃ p ∈ l, p.head? = some spSPlayer) →
    ∀ i : Slot, active (s.mem.players i) → ∃ f, (i.val / 16, f) ∈ allBlocks s.sendShort l
  highest : 1 < s.sendShort → ∀ i : Slot, active (s.mem.players i) → i.val ≤ t.highestActivePlayer
  unsampled : ¬1 < s.sendShort → t.highestActivePlayer = 0

/-- The records are sent. -/
theorem Recorded.records {s₀ : Ships} (h : Sampled s₀ 32 32 s) :
    ∃ l, Recorded s₀ l (if s.sendShort ≠ 0 ∧ (12 < s.clientVPlayerCount ∨ s.big ∨ 1 < s.sendShort) then
      { s with toVScreen := s.toVScreen.sendVPlayers } else s) := by
  obtain ⟨l₀, hl₀, hplain⟩ := h.sent
  -- the ships that are there were all recorded, with a flag word that is right
  have hhighest : 1 < s₀.sendShort → ∀ i : Slot, active (s₀.mem.players i) → i.val ≤ s.highestActivePlayer :=
    fun hs i hactive => (h.sampled hs i i.isLt hactive).2
  have hgood : 1 < s₀.sendShort → ∀ offset, Good s₀ (offset, s.flagWord offset) := fun hs offset =>
    good_flagWord fun i _ hactive => (h.sampled hs i i.isLt hactive).1
  -- the blocks follow only when they are due
  split
  · obtain ⟨b, l, hl⟩ := sendVPlayers_keep s.toVScreen
    obtain ⟨hheads, hnone, hblocks⟩ := sendVPlayers_blocks h hl
    -- the packets before it carry no block of flags
    rw [hl]
    have happend : allBlocks s₀.sendShort (l₀ ++ l) = allBlocks s.sendShort l := by
      rw [allBlocks, List.flatMap_append]
      show allBlocks s₀.sendShort l₀ ++ allBlocks s₀.sendShort l = _
      rw [allBlocks_plain hplain, List.nil_append, h.sendShort]
    refine ⟨l₀ ++ l, h.mem, h.sendShort, h.full, h.flagsAll, ?_, ?_, ?_, ?_, ?_, hhighest, h.unsampled⟩
    · show s.sent ++ l = _
      rw [hl₀, List.append_assoc]
    · rintro p hp
      rcases List.mem_append.1 hp with hp | hp
      · exact (hplain p hp).2
      · rw [hheads p hp]
        decide
    · rintro hno p hp
      rw [hnone hno, List.append_nil] at hp
      exact hplain p hp
    · rintro hs b hb
      rw [happend] at hb
      rcases (hblocks (h.sendShort ▸ hs)).1 b hb with rfl | rfl
      · exact hgood hs 0
      · exact hgood hs 1
    -- a ship of the lower half is in block 0, one of the upper half in block 1
    · rintro hs ⟨p, hp, hhead⟩ i hactive
      have hne : l ≠ [] := by
        rintro rfl
        rw [List.append_nil] at hp
        exact (hplain p hp).1 hhead
      obtain ⟨hzero, hone⟩ := (hblocks (h.sendShort ▸ hs)).2 hne
      rw [happend]
      have hlt : i.val < 32 := i.isLt
      have hle := hhighest hs i hactive
      have hhigh := h.highest
      by_cases hi : i.val < 16
      · exact ⟨_, (show i.val / 16 = 0 by omega) ▸ hzero⟩
      · have hupper : s.upperActive = true := by
          unfold VScreen.upperActive
          rw [decide_eq_true (show 15 < s.highestActivePlayer by omega), decide_eq_true hhigh]
          rfl
        exact ⟨_, (show i.val / 16 = 1 by omega) ▸ hone hupper⟩
  -- no block was due, so there is nothing but the plain packets
  · rename_i hcond
    have hs : ¬1 < s₀.sendShort := fun hs => by
      rw [← h.sendShort] at hs
      exact hcond ⟨by omega, Or.inr (Or.inr hs)⟩
    exact ⟨l₀, h.mem, h.sendShort, h.full, h.flagsAll, hl₀, fun p hp => (hplain p hp).2, fun _ => hplain,
      fun h' => absurd h' hs, fun h' => absurd h' hs, hhighest, h.unsampled⟩

/-- Packets of other kinds carry no blocks. -/
theorem Recorded.quiet {l : List (List UInt8)} {t t' : Ships} (h : Recorded s l t) (hq : Quiet t t') :
    ∃ l', Recorded s l' t' := by
  obtain ⟨k, hk, hplain⟩ := hq.screen
  have happend : allBlocks s.sendShort (l ++ k) = allBlocks s.sendShort l := by
    rw [allBlocks, List.flatMap_append]
    show _ ++ allBlocks s.sendShort k = _
    rw [allBlocks_plain hplain, List.append_nil]
    rfl
  have hmem : t'.mem = t.mem := by rw [hk]
  have hsend : t'.sendShort = t.sendShort := by rw [hk]
  have hhigh : t'.highestActivePlayer = t.highestActivePlayer := by rw [hk]
  have hsent : t'.sent = t.sent ++ k := by rw [hk]
  refine ⟨l ++ k, hmem.trans h.mem, hsend.trans h.sendShort, hq.full.trans h.full, hq.flagsAll.trans h.flagsAll, ?_, ?_, ?_,
    ?_, ?_, ?_, fun hs => hhigh.trans (h.unsampled hs)⟩
  · rw [hsent, h.sent, List.append_assoc]
  · rintro p hp
    rcases List.mem_append.1 hp with hp | hp
    · exact h.other p hp
    · exact (hplain p hp).2
  · rintro hno p hp
    rcases List.mem_append.1 hp with hp | hp
    · exact h.without hno p hp
    · exact hplain p hp
  · rw [happend]
    exact h.good
  · rw [happend]
    rintro hs ⟨p, hp, hhead⟩
    rcases List.mem_append.1 hp with hp | hp
    · exact h.all hs ⟨p, hp, hhead⟩
    · exact absurd hhead (hplain p hp).1
  · rw [hhigh]
    exact h.highest

/-- After the records come the kills and then, if they are to be sent, the flags of all. -/
theorem Recorded.finish {s₀ : Ships} (h : Sampled s₀ 32 32 s) :
    ∃ l t, Recorded s₀ l t ∧ s.finish = if t.flagsAll ∧ (t.sendShort ≠ 0 → t.fullDirection) then
      if 15 < (t.updateFlagsAll 0).highestActivePlayer then (t.updateFlagsAll 0).updateFlagsAll 1 else t.updateFlagsAll 0
      else t := by
  obtain ⟨l, hl⟩ := Recorded.records h
  unfold Ships.finish
  extract_lets screen u v first
  have hv : ∃ l', Recorded s₀ l' v := by
    unfold v
    split
    · exact Recorded.quiet hl (quiet_sendVKills u)
    · exact ⟨l, hl⟩
  obtain ⟨l', hv⟩ := hv
  exact ⟨l', v, hv, rfl⟩

/-- Blocks that are all good have the states of all players if there is one for each. -/
theorem allStates_iff {bs : List (Nat × Word)} (hgood : ∀ b ∈ bs, Good s b) :
    AllStates s bs ↔ ∀ i : Slot, active (s.mem.players i) → ∃ f, (i.val / 16, f) ∈ bs :=
  ⟨fun h i hactive => (h i hactive).1, fun h i hactive => ⟨h i hactive, fun _ hf => hgood _ hf i hactive rfl⟩⟩

/-- The packet of a half of the slots, with these flags. -/
def allPacket (offset : Nat) (w : Word) : List UInt8 := [spFlagsAll, UInt8.ofNat offset, 0, 0] ++ Network.word w

/-- The flags of the lower slots alone are sent. -/
theorem Recorded.lower {l : List (List UInt8)} {t : Ships} (h : Recorded s.begin l t) (hplain : ∀ p ∈ l, Plain p)
    (hship : s.updateShips = t.updateFlagsAll 0) : ∃ w, Good s (0, w) ∧ newPackets s = l ++ [allPacket 0 w] ∧
      allBlocks s.sendShort (newPackets s) = [(0, w)] := by
  obtain ⟨f, w, hzero, hgood⟩ := updateFlagsAll_eq t 0
  have hnew : newPackets s = l ++ [allPacket 0 w] := by
    unfold newPackets
    rw [hship, hzero]
    show List.drop _ (t.sent ++ _) = _
    rw [h.sent, List.append_assoc, show s.begin.sent = s.sent from rfl, List.drop_left]
    rfl
  refine ⟨w, ?_, hnew, ?_⟩
  · unfold Good at hgood
    rwa [h.mem] at hgood
  · rw [hnew, allBlocks, List.flatMap_append]
    show allBlocks s.sendShort l ++ _ = _
    rw [allBlocks_plain hplain, List.nil_append, List.flatMap_singleton]
    exact blocksOf_flagsAll _ 0 (by decide) w

/-- The flags of all slots are sent. -/
theorem Recorded.both {l : List (List UInt8)} {t : Ships} (h : Recorded s.begin l t) (hplain : ∀ p ∈ l, Plain p)
    (hship : s.updateShips = (t.updateFlagsAll 0).updateFlagsAll 1) : ∃ w w', Good s (0, w) ∧ Good s (1, w') ∧
      allBlocks s.sendShort (newPackets s) = [(0, w), (1, w')] := by
  obtain ⟨f, w, hzero, hgood⟩ := updateFlagsAll_eq t 0
  obtain ⟨f', w', hone, hgood'⟩ := updateFlagsAll_eq (t.updateFlagsAll 0) 1
  have hnew : newPackets s = l ++ ([allPacket 0 w] ++ [allPacket 1 w']) := by
    unfold newPackets
    rw [hship, hone, hzero]
    show List.drop _ (t.sent ++ _ ++ _) = _
    rw [h.sent, List.append_assoc, List.append_assoc, show s.begin.sent = s.sent from rfl, List.drop_left]
    rfl
  refine ⟨w, w', ?_, ?_, ?_⟩
  · unfold Good at hgood
    rwa [h.mem] at hgood
  · unfold Good at hgood'
    rwa [hzero, h.mem] at hgood'
  · rw [hnew, allBlocks, List.flatMap_append]
    show allBlocks s.sendShort l ++ _ = _
    rw [allBlocks_plain hplain, List.nil_append, List.flatMap_append, List.flatMap_singleton, List.flatMap_singleton]
    unfold allPacket
    rw [blocksOf_flagsAll _ 0 (by decide), blocksOf_flagsAll _ 1 (by decide)]
    rfl

/-- Good blocks of both halves have the states of all players. -/
theorem allStates_both {w w' : Word} (h : Good s (0, w)) (h' : Good s (1, w')) : AllStates s [(0, w), (1, w')] := by
  refine (allStates_iff ?_).2 fun i _ => ?_
  · rintro b hb
    rcases List.mem_pair.1 hb with rfl | rfl
    · exact h
    · exact h'
  · have hlt : i.val < 32 := i.isLt
    have hcases : i.val / 16 = 0 ∨ i.val / 16 = 1 := by omega
    rcases hcases with hi | hi
    · exact ⟨w, by rw [hi]; exact List.mem_cons_self⟩
    · exact ⟨w', by rw [hi]; exact List.mem_cons_of_mem _ List.mem_cons_self⟩

/-- A good block of the lower half has the states of all players if there is none in the upper half. -/
theorem allStates_lower {w : Word} (h : Good s (0, w)) :
    AllStates s [(0, w)] ↔ ∀ i : Slot, active (s.mem.players i) → i.val ≤ 15 := by
  rw [allStates_iff (by
    rintro b hb
    rw [List.mem_singleton.1 hb]
    exact h)]
  refine forall_congr' fun i => imp_congr_right fun _ => ?_
  constructor
  · rintro ⟨f, hf⟩
    have hzero : i.val / 16 = 0 := congrArg Prod.fst (List.mem_singleton.1 hf)
    omega
  · intro hle
    have hzero : i.val / 16 = 0 := by omega
    exact ⟨w, by rw [hzero]; exact List.mem_cons_self⟩

/-- The blocks that one call of `updateShips` sends have the states of all players, exactly if it is not one of the
calls that send `SP_FLAGS_ALL` without having looked for the highest player, with a player in the upper sixteen slots. -/
theorem sampling_covers (s : Ships) : Covers s ↔ ¬forgets s := by
  obtain ⟨l, t, h, hship⟩ := Recorded.finish (Sampled.loop s)
  change s.updateShips = _ at hship
  have hshort : s.begin.sendShort = s.sendShort := rfl
  by_cases hcond : t.flagsAll ∧ (t.sendShort ≠ 0 → t.fullDirection)
  -- the flags of all are sent, and no other blocks
  · rw [if_pos hcond] at hship
    have hsends : s.flagsAll ∧ (s.sendShort ≠ 0 → s.fullDirection) := by
      rw [h.flagsAll, h.sendShort, h.full] at hcond
      exact hcond
    have hplain : ∀ p ∈ l, Plain p := h.without (by
      by_cases hz : s.sendShort = 0
      · exact Or.inl hz
      · exact Or.inr (hsends.2 hz))
    have hhighest : (t.updateFlagsAll 0).highestActivePlayer = t.highestActivePlayer := by
      obtain ⟨f, w, hzero, -⟩ := updateFlagsAll_eq t 0
      rw [hzero]
    rw [hhighest] at hship
    by_cases hhigh : 15 < t.highestActivePlayer
    -- two packets, only in S_P2
    · rw [if_pos hhigh] at hship
      obtain ⟨w, w', hgood, hgood', hblocks⟩ := h.both hplain hship
      have hs : 1 < s.sendShort := by
        by_contra hs
        have := h.unsampled hs
        omega
      have hnot : ¬forgets s := by
        rintro ⟨-, hle, -⟩
        omega
      refine iff_of_true (fun _ => ?_) hnot
      rw [hblocks]
      exact allStates_both hgood hgood'
    -- one packet, for the lower sixteen slots
    · rw [if_neg hhigh] at hship
      obtain ⟨w, hgood, hnew, hblocks⟩ := h.lower hplain hship
      have hpremise : ∃ p ∈ newPackets s, p.head? = some spFlagsAll := by
        refine ⟨allPacket 0 w, ?_, rfl⟩
        rw [hnew]
        exact List.mem_append_right _ List.mem_cons_self
      have hcover : Covers s ↔ AllStates s [(0, w)] := by
        unfold Covers
        rw [hblocks]
        exact ⟨fun hc => hc (Or.inr hpremise), fun hc _ => hc⟩
      rw [hcover, allStates_lower hgood]
      constructor
      · rintro hlow ⟨-, -, -, i, hi, hactive⟩
        have := hlow i hactive
        omega
      · rintro hnot i hactive
        by_contra hup
        by_cases hs : 1 < s.sendShort
        -- S_P2 has looked for the highest player
        · have := h.highest hs i hactive
          omega
        · exact hnot ⟨hsends.1, by omega, hsends.2, i, by omega, hactive⟩
  -- only the records have blocks
  · rw [if_neg hcond] at hship
    have hnew : newPackets s = l := by
      unfold newPackets
      rw [hship, h.sent, show s.begin.sent = s.sent from rfl, List.drop_left]
    have hnot : ¬forgets s := by
      rintro ⟨hflags, -, himp, -⟩
      refine hcond ⟨h.flagsAll.trans hflags, fun hne => h.full.trans (himp ?_)⟩
      exact fun hz => hne (h.sendShort.trans hz)
    refine iff_of_true ?_ hnot
    unfold Covers
    rw [hnew]
    rintro (⟨hmarks, hplayer⟩ | ⟨p, hp, hhead⟩)
    · have hs : 1 < s.sendShort := by
        unfold marks at hmarks
        rw [Bool.and_eq_true, decide_eq_true_eq] at hmarks
        exact hmarks.1
      exact (allStates_iff (h.good hs)).2 (h.all hs hplayer)
    · exact absurd hhead (h.other p hp)

/-- One ship, in slot 16, and a client of `SP_FLAGS_ALL` without short packets. -/
def upperShip : Ships :=
  { (default : Ships) with
    flagsAll := true
    fps := 50
    mem := { (default : Memory) with
      players := Function.update (default : Memory).players 16 { (default : Player) with status := .palive, fpu := 5 } } }

/-- Its flags are not sent. -/
theorem upperShip_forgotten : ¬Covers upperShip := by
  intro hcovers
  have hsent : ∃ p ∈ newPackets upperShip, p.head? = some spFlagsAll := by decide +kernel
  have hlower : ∀ b ∈ allBlocks upperShip.sendShort (newPackets upperShip), b.1 = 0 := by decide +kernel
  have hactive : active (upperShip.mem.players 16) = true := by decide +kernel
  obtain ⟨f, hf⟩ := (hcovers (Or.inr hsent) 16 hactive).1
  have hzero : (16 : Slot).val / 16 = 0 := hlower _ hf
  exact absurd hzero (by decide)

end Netrek.Short
