/-
The packets of `sendVPlayers`: in each header form, the packet that carries the records is read back.
-/
import Mathlib.Tactic.IntervalCases
import NetrekServer.Short.Records

namespace Netrek.Short

open Netrek.Lib

variable {s s' : VScreen} {ps : List PlayerSpacket}

/-! ## Header forms -/

theorem packets_or {n : Nat} (h : n < 64) :
    (UInt8.ofNat n ||| 64).toNat % 64 = n ∧ (UInt8.ofNat n ||| 64).toNat.testBit 6 = true := by
  interval_cases n <;> decide

theorem packets_plain {n : Nat} (h : n < 64) :
    (UInt8.ofNat n).toNat % 64 = n ∧ (UInt8.ofNat n).toNat.testBit 6 = false := by
  interval_cases n <;> decide

/-- The packet that carries the records. -/
structure Carries (s : VScreen) (own : Option PlayerSpacket) (others : List PlayerSpacket) (packet : List UInt8) : Prop where
  read : readPlayers s.sendShort packet =
    some ⟨own.map s.ownRead, s.flagBlocks own.isSome, others.map s.recordRead⟩
  size : packet.length = s.headerForm own.isSome + 4 * others.length
  count : (packet.getD 1 0).toNat % 64 = others.length

variable {others : List PlayerSpacket} {p : PlayerSpacket}

/-! ## Reading a header -/

theorem headerSize_big (k : Nat) {n : UInt8} (hn : n.toNat.testBit 6 = false) (header recs : List UInt8) :
    headerSize k (spSPlayer :: n :: header ++ recs) = 12 := by
  have hs : isSmall (spSPlayer :: n :: header ++ recs) = false := hn
  unfold headerSize
  rw [hs]
  rfl

theorem headerSize_one {k : Nat} (hk : ¬1 < k) {n : UInt8} (hn : n.toNat.testBit 6 = true) (header recs : List UInt8) :
    headerSize k (spSPlayer :: n :: header ++ recs) = 4 := by
  have hs : isSmall (spSPlayer :: n :: header ++ recs) = true := hn
  unfold headerSize
  rw [hs, if_pos rfl, if_neg hk]

theorem headerSize_two {k : Nat} (hk : 1 < k) {n : UInt8} (hn : n.toNat.testBit 6 = true) (i : UInt8)
    (header recs : List UInt8) : headerSize k (spSPlayer :: n :: (i :: header) ++ recs) = 4 + 4 * i.toNat := by
  have hs : isSmall (spSPlayer :: n :: (i :: header) ++ recs) = true := hn
  unfold headerSize
  rw [hs, if_pos rfl, if_pos hk]
  rfl

theorem readOwn_one {k : Nat} (hk : ¬1 < k) (n d v : UInt8) (x y : Word) (recs : List UInt8) :
    readOwn k (spSPlayer :: n :: ([d, v] ++ Network.word x ++ Network.word y) ++ recs) = ⟨d, v, x.toInt, y.toInt⟩ := by
  have hx : Network.wordAt (spSPlayer :: n :: ([d, v] ++ Network.word x ++ Network.word y) ++ recs) 4 = x :=
    Network.wordAt_append [spSPlayer, n, d, v] (Network.word y ++ recs) x
  have hy : Network.wordAt (spSPlayer :: n :: ([d, v] ++ Network.word x ++ Network.word y) ++ recs) 8 = y :=
    Network.wordAt_append ([spSPlayer, n, d, v] ++ Network.word x) recs y
  unfold readOwn
  rw [if_neg hk, hx, hy]
  rfl

theorem readOwn_two {k : Nat} (hk : 1 < k) (n d v : UInt8) (x y : BitVec 16) (rest recs : List UInt8) :
    readOwn k (spSPlayer :: n :: ([d, v] ++ Network.half x ++ Network.half y ++ rest) ++ recs) =
      ⟨d, v, x.toInt, y.toInt⟩ := by
  have hx : Network.halfAt (spSPlayer :: n :: ([d, v] ++ Network.half x ++ Network.half y ++ rest) ++ recs) 4 = x := by
    rw [List.append_assoc]
    exact Network.halfAt_append [spSPlayer, n, d, v] (Network.half y ++ (rest ++ recs)) x
  have hy : Network.halfAt (spSPlayer :: n :: ([d, v] ++ Network.half x ++ Network.half y ++ rest) ++ recs) 6 = y := by
    rw [List.append_assoc]
    exact Network.halfAt_append ([spSPlayer, n, d, v] ++ Network.half x) (rest ++ recs) y
  unfold readOwn
  rw [if_pos hk, hx, hy]
  rfl

theorem readFlags_own {k : Nat} (hk : 1 < k) (n d v : UInt8) (hn : n.toNat.testBit 6 = false) (x y : BitVec 16) (f : Word)
    (recs : List UInt8) :
    readFlags k (spSPlayer :: n :: ([d, v] ++ Network.half x ++ Network.half y ++ Network.word f) ++ recs) = [(0, f)] := by
  have hf : Network.wordAt (spSPlayer :: n :: ([d, v] ++ Network.half x ++ Network.half y ++ Network.word f) ++ recs) 8 =
      f := Network.wordAt_append ([spSPlayer, n, d, v] ++ Network.half x ++ Network.half y) recs f
  have hs : isSmall (spSPlayer :: n :: ([d, v] ++ Network.half x ++ Network.half y ++ Network.word f) ++ recs) = false := hn
  unfold readFlags
  rw [if_pos hk, hs, hf]
  rfl

theorem readFlags_lower {k : Nat} (hk : 1 < k) (n i : UInt8) (hn : n.toNat.testBit 6 = true) (f : Word)
    (recs : List UInt8) :
    readFlags k (spSPlayer :: n :: ([1, i] ++ Network.word f) ++ recs) = [(i.toNat, f)] := by
  have hf : Network.wordAt (spSPlayer :: n :: ([1, i] ++ Network.word f) ++ recs) 4 = f :=
    Network.wordAt_append [spSPlayer, n, 1, i] recs f
  have hs : isSmall (spSPlayer :: n :: ([1, i] ++ Network.word f) ++ recs) = true := hn
  unfold readFlags
  rw [if_pos hk, hs, if_pos rfl]
  show [(i.toNat - 0, Network.wordAt _ 4)] = _
  rw [hf]
  rfl

theorem readFlags_all {k : Nat} (hk : 1 < k) (n : UInt8) (hn : n.toNat.testBit 6 = true) (f f' : Word)
    (recs : List UInt8) :
    readFlags k (spSPlayer :: n :: ([2, 1] ++ Network.word f ++ Network.word f') ++ recs) = [(1, f), (0, f')] := by
  have hf : Network.wordAt (spSPlayer :: n :: ([2, 1] ++ Network.word f ++ Network.word f') ++ recs) 4 = f :=
    Network.wordAt_append [spSPlayer, n, 2, 1] (Network.word f' ++ recs) f
  have hf' : Network.wordAt (spSPlayer :: n :: ([2, 1] ++ Network.word f ++ Network.word f') ++ recs) 8 = f' :=
    Network.wordAt_append ([spSPlayer, n, 2, 1] ++ Network.word f) recs f'
  have hs : isSmall (spSPlayer :: n :: ([2, 1] ++ Network.word f ++ Network.word f') ++ recs) = true := hn
  unfold readFlags
  rw [if_pos hk, hs, if_pos rfl]
  show [(1, Network.wordAt _ 4), (0, Network.wordAt _ 8)] = _
  rw [hf, hf']

/-- The big header of S_P1. -/
theorem carries_own_one (hn : others.length < 64) (hs : ¬1 < s.sendShort) :
    Carries s (some p) others
      (spSPlayer :: UInt8.ofNat others.length :: s.ownBytes p ++ others.flatMap s.record) := by
  obtain ⟨hcount, hbig⟩ := packets_plain hn
  have hrecs := length_records s others
  have hbytes : s.ownBytes p = [p.dir, p.speed] ++ Network.word p.x ++ Network.word p.y := by
    unfold VScreen.ownBytes
    rw [if_neg hs]
  rw [hbytes]
  refine ⟨?_, ?_, hcount⟩
  · rw [readPlayers_header hcount (headerSize_big _ hbig _ _) hrecs, hbig, readRecords_records, readOwn_one hs]
    unfold readFlags VScreen.flagBlocks
    rw [if_neg hs, if_neg hs]
    simp only [Option.map_some, VScreen.ownRead, if_neg hs]
    rfl
  · rw [List.length_append, hrecs]
    rfl

/-- The big header of S_P2. -/
theorem carries_own_two (hn : others.length < 64) (hs : 1 < s.sendShort) :
    Carries s (some p) others (spSPlayer :: UInt8.ofNat others.length ::
      (s.ownBytes p ++ Network.word (s.flagWord 0)) ++ others.flatMap s.record) := by
  obtain ⟨hcount, hbig⟩ := packets_plain hn
  have hrecs := length_records s others
  have hbytes : s.ownBytes p = [p.dir, p.speed] ++ Network.half (((p.x + 20) / 40).setWidth 16) ++
      Network.half (((p.y + 20) / 40).setWidth 16) := by
    unfold VScreen.ownBytes
    rw [if_pos hs]
  have hown : VScreen.ownRead s p = ⟨p.dir, p.speed, (((p.x + 20) / 40).setWidth 16).toInt,
      (((p.y + 20) / 40).setWidth 16).toInt⟩ := by
    unfold VScreen.ownRead
    rw [if_pos hs]
  rw [hbytes]
  generalize (((p.x + 20) / 40).setWidth 16 : BitVec 16) = x at hown ⊢
  generalize (((p.y + 20) / 40).setWidth 16 : BitVec 16) = y at hown ⊢
  refine ⟨?_, ?_, hcount⟩
  · rw [readPlayers_header hcount (headerSize_big _ hbig _ _) hrecs, hbig, readRecords_records, readOwn_two hs, readFlags_own hs _ _ _ hbig]
    unfold VScreen.flagBlocks
    rw [if_pos hs]
    simp only [Option.map_some, hown]
    rfl
  · rw [List.length_append, hrecs]
    rfl

/-- The small header of S_P1. -/
theorem carries_one (hn : others.length < 64) (hs : ¬1 < s.sendShort) :
    Carries s none others (spSPlayer :: (UInt8.ofNat others.length ||| 64) :: [0, 0] ++ others.flatMap s.record) := by
  obtain ⟨hcount, hsmall⟩ := packets_or hn
  have hrecs := length_records s others
  refine ⟨?_, ?_, hcount⟩
  · rw [readPlayers_header hcount (headerSize_one hs hsmall _ _) hrecs, hsmall, readRecords_records]
    unfold readFlags VScreen.flagBlocks
    rw [if_neg hs, if_neg hs]
    rfl
  · rw [List.length_append, hrecs]
    unfold VScreen.headerForm
    rw [Option.isSome_none, if_neg Bool.false_ne_true, if_neg hs]
    rfl

/-- The small header of S_P2, with one block of flags. -/
theorem carries_two (hn : others.length < 64) (hs : 1 < s.sendShort) (hu : s.upperActive = false) :
    Carries s none others (spSPlayer :: (UInt8.ofNat others.length ||| 64) :: ([1, 0] ++ Network.word (s.flagWord 0)) ++
      others.flatMap s.record) := by
  obtain ⟨hcount, hsmall⟩ := packets_or hn
  have hrecs := length_records s others
  refine ⟨?_, ?_, hcount⟩
  · rw [readPlayers_header hcount (headerSize_two hs hsmall _ _ _) hrecs, hsmall, readRecords_records, readFlags_lower hs _ _ hsmall]
    unfold VScreen.flagBlocks
    rw [if_pos hs, hu]
    rfl
  · rw [List.length_append, hrecs]
    unfold VScreen.headerForm
    rw [hu, Option.isSome_none, if_neg Bool.false_ne_true, if_pos hs]
    rfl

/-- The small header of S_P2, with the flags of all. -/
theorem carries_two_all (hn : others.length < 64) (hs : 1 < s.sendShort) (hu : s.upperActive = true) :
    Carries s none others (spSPlayer :: (UInt8.ofNat others.length ||| 64) ::
      ([2, 1] ++ Network.word (s.flagWord 1) ++ Network.word (s.flagWord 0)) ++ others.flatMap s.record) := by
  obtain ⟨hcount, hsmall⟩ := packets_or hn
  have hrecs := length_records s others
  refine ⟨?_, ?_, hcount⟩
  · rw [readPlayers_header hcount (headerSize_two hs hsmall _ _ _) hrecs, hsmall, readRecords_records, readFlags_all hs _ hsmall]
    unfold VScreen.flagBlocks
    rw [if_pos hs, hu]
    rfl
  · rw [List.length_append, hrecs]
    unfold VScreen.headerForm
    rw [hu, Option.isSome_none, if_neg Bool.false_ne_true, if_pos hs]
    rfl

/-! ## What is sent -/

theorem emit_sent (s : VScreen) (pos : Nat) (bytes : List UInt8) (start size : Nat) :
    (s.emit pos bytes start size).sent = s.sent ++ [(s.clientVPlayers.write pos bytes).read start size] := rfl

/-- Filling in the type does not touch what was collected. -/
theorem Collected.withType (h : Collected s ps s') :
    Collected s ps { s' with clientVPlayers := Function.update s'.clientVPlayers 0 spSPlayer } := by
  refine ⟨h.mem, h.me, h.sendShort, h.flags, h.highest, h.sent, h.count, ?_, ?_, h.big, fun p hp => ?_⟩
  · have hone : Function.update s'.clientVPlayers 0 spSPlayer 1 = s'.clientVPlayers 1 :=
      Function.update_of_ne (by decide) _ _
    exact hone.trans h.packets
  · refine Eq.trans (Cells.read_congr fun k _ => ?_) h.records
    exact Function.update_of_ne (by omega) _ _
  · refine Eq.trans (Cells.read_congr fun k _ => ?_) (h.own p hp)
    exact Function.update_of_ne (by omega) _ _

/-- The packet that carries the records, behind a header in the buffer. -/
theorem read_packet {v : Cells UInt8} {start n : Nat} {header recs : List UInt8} (hh : start + header.length = 12)
    (hread : v.read start header.length = header) (hrecs : v.read 12 (4 * n) = recs) :
    v.read start (header.length + n * 4) = header ++ recs := by
  rw [Cells.read_add, hh, hread, Nat.mul_comm, hrecs]

namespace Collected

/-- The records are not touched by any header. -/
theorem behind (h : Collected s ps s') (pos : Nat) (bytes : List UInt8) (hle : pos + bytes.length ≤ 12) :
    (s'.clientVPlayers.write pos bytes).read 12 (4 * (s.others ps).length) = (s.others ps).flatMap s.record := by
  rw [← h.records]
  exact Cells.read_write_apart (Or.inr hle)

/-- The first two bytes: the type, and the number of the records. -/
theorem front (h : Collected s ps s') (h0 : s'.clientVPlayers 0 = spSPlayer) :
    s'.clientVPlayers.read 0 2 = [spSPlayer, UInt8.ofNat (s.others ps).length] := by
  rw [← h0, ← h.packets]
  rfl

/-- The packet with the big header of S_P2. -/
theorem read_two (h : Collected s ps s') (h0 : s'.clientVPlayers 0 = spSPlayer) (hown : s.own ps = some p)
    (hs : 1 < s.sendShort) :
    (s'.clientVPlayers.write 8 (Network.word (s.flagWord 0))).read 0 (12 + (s.others ps).length * 4) =
      spSPlayer :: UInt8.ofNat (s.others ps).length :: (s.ownBytes p ++ Network.word (s.flagWord 0)) ++
        (s.others ps).flatMap s.record := by
  have hlen : (s.ownBytes p).length = 6 := by rw [length_ownBytes, if_pos hs]
  have hfull : (spSPlayer :: UInt8.ofNat (s.others ps).length :: (s.ownBytes p ++ Network.word (s.flagWord 0))).length =
      12 := by
    simp only [List.length_cons, List.length_append, hlen]
    rfl
  have hread : (s'.clientVPlayers.write 8 (Network.word (s.flagWord 0))).read 0 12 =
      spSPlayer :: UInt8.ofNat (s.others ps).length :: (s.ownBytes p ++ Network.word (s.flagWord 0)) := by
    rw [show 12 = 2 + (s.ownBytes p).length + (Network.word (s.flagWord 0)).length by rw [hlen]; rfl, Cells.read_add,
      Cells.read_add, Cells.read_write_apart (Or.inl (by decide)), h.front h0,
      Cells.read_write_apart (Or.inl (by rw [hlen])), h.own p hown, Nat.zero_add, hlen, Cells.read_write_self]
    rfl
  have hpacket := read_packet (by rw [hfull]) (by rw [hfull]; exact hread)
    (h.behind _ (Network.word (s.flagWord 0)) (Nat.le_refl 12))
  rw [hfull] at hpacket
  exact hpacket

/-- The packet with the big header of S_P1. -/
theorem read_one (h : Collected s ps s') (h0 : s'.clientVPlayers 0 = spSPlayer) (hown : s.own ps = some p)
    (hs : ¬1 < s.sendShort) :
    (s'.clientVPlayers.write 0 []).read 0 (12 + (s.others ps).length * 4) =
      spSPlayer :: UInt8.ofNat (s.others ps).length :: s.ownBytes p ++ (s.others ps).flatMap s.record := by
  have hlen : (s.ownBytes p).length = 10 := by rw [length_ownBytes, if_neg hs]
  have hfull : (spSPlayer :: UInt8.ofNat (s.others ps).length :: s.ownBytes p).length = 12 := by
    simp only [List.length_cons, hlen]
  have hread : (s'.clientVPlayers.write 0 []).read 0 12 =
      spSPlayer :: UInt8.ofNat (s.others ps).length :: s.ownBytes p := by
    rw [show 12 = 2 + (s.ownBytes p).length by rw [hlen], Cells.read_write_apart (Or.inr (Nat.le_refl 0)), Cells.read_add,
      h.front h0, h.own p hown]
    rfl
  have hpacket := read_packet (by rw [hfull]) (by rw [hfull]; exact hread) (h.behind _ [] (Nat.zero_le 12))
  rw [hfull] at hpacket
  exact hpacket

end Collected

/-- What is sent: the packet with the records, if there is anything to send, and then the flags of the upper players, if
the header before had no room for them. -/
theorem sendRecords_sent (h : Collected s ps s') (h0 : s'.clientVPlayers 0 = spSPlayer) (hn : (s.others ps).length < 64) :
    (s.own ps = none → s.others ps = [] → s'.sendRecords.sent = s.sent) ∧
      ((s.own ps).isSome ∨ s.others ps ≠ [] → ∃ packet, Carries s (s.own ps) (s.others ps) packet ∧
        s'.sendRecords.sent = s.sent ++ [packet] ++
          if (s.own ps).isSome ∧ 1 < s.sendShort ∧ s.upperActive then [s.flagPacket] else []) := by
  have hpackets : (s'.clientVPlayers 1).toNat = (s.others ps).length := by
    rw [h.packets, UInt8.toNat_ofNat']
    exact Nat.mod_eq_of_lt (by omega)
  have hflag : ∀ k, s'.flagWord k = s.flagWord k := by
    intro k
    unfold VScreen.flagWord
    rw [h.flags]
  have hupper : s'.upperActive = s.upperActive := by
    unfold VScreen.upperActive
    rw [h.highest]
  have hcount : 12 < s'.clientVPlayerCount ↔ s.others ps ≠ [] := by
    rw [h.count, ← List.length_pos_iff]
    omega
  unfold VScreen.sendRecords
  dsimp only
  rw [hpackets, h.big, h.sendShort]
  cases hown : s.own ps with
  | some p =>
    -- the own ship is in the header, which is big
    refine ⟨fun hc => absurd hc (Option.some_ne_none p), fun _ => ?_⟩
    simp only [Option.isSome_some, if_true, true_and]
    by_cases hs : 1 < s.sendShort
    · simp only [hs, if_true, true_and]
      refine ⟨_, carries_own_two hn hs, ?_⟩
      have hu : (s'.emit 8 (Network.word (s'.flagWord 0)) 0 (12 + (s.others ps).length * 4)).upperActive = s.upperActive :=
        hupper
      have hpacket := h.read_two h0 hown hs
      rw [hu]
      by_cases hup : s.upperActive = true
      -- its flags are those of the lower slots, so those of the upper slots follow in a packet of their own
      · rw [if_pos hup, if_pos hup, emit_sent, emit_sent, h.sent, hflag, hpacket]
        have hflags := Cells.read_write_self (s'.clientVPlayers.write 8 (Network.word (s.flagWord 0))) 4 s.flagPacket
        have hlast : (s'.emit 8 (Network.word (s.flagWord 0)) 0 (12 + (s.others ps).length * 4)).flagWord 1 = s.flagWord 1 :=
          hflag 1
        rw [hlast]
        refine congrArg (fun q => s.sent ++ [spSPlayer :: UInt8.ofNat (s.others ps).length ::
          (s.ownBytes p ++ Network.word (s.flagWord 0)) ++ (s.others ps).flatMap s.record] ++ [q]) hflags
      · rw [if_neg hup, if_neg hup, List.append_nil, emit_sent, h.sent, hflag, hpacket]
    · simp only [hs, if_false, false_and, List.append_nil]
      refine ⟨_, carries_own_one hn hs, ?_⟩
      rw [emit_sent, h.sent, h.read_one h0 hown hs]
  | none =>
    -- the small header, which in S_P2 has room for all flags
    simp only [Option.isSome_none, Bool.false_eq_true, if_false, false_and, List.append_nil, false_or]
    refine ⟨fun _ ho => ?_, fun ho => ?_⟩
    · rw [if_neg (fun hc => hcount.1 hc ho)]
      exact h.sent
    · simp only [hcount.2 ho, if_true, h.packets]
      by_cases hs : 1 < s.sendShort
      · simp only [hs, if_true, hupper]
        by_cases hup : s.upperActive = true
        · simp only [hup, if_true]
          refine ⟨_, carries_two_all hn hs hup, ?_⟩
          rw [emit_sent, h.sent, hflag, hflag]
          exact congrArg (fun q => s.sent ++ [q]) (read_packet rfl (Cells.read_write_self _ _ _) (h.behind _ _ (Nat.le_refl 12)))
        · simp only [hup]
          refine ⟨_, carries_two hn hs (Bool.eq_false_iff.2 hup), ?_⟩
          show (VScreen.emit _ _ _ _ _).sent = _
          rw [emit_sent, h.sent, hflag]
          exact congrArg (fun q => s.sent ++ [q]) (read_packet rfl (Cells.read_write_self _ _ _) (h.behind _ _ (Nat.le_refl 12)))
      · simp only [hs, if_false]
        refine ⟨_, carries_one hn hs, ?_⟩
        rw [emit_sent, h.sent]
        exact congrArg (fun q => s.sent ++ [q]) (read_packet rfl (Cells.read_write_self _ _ _) (h.behind _ _ (Nat.le_refl 12)))

end Netrek.Short
