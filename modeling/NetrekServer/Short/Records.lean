/-
Reading `SP_S_PLAYER` packets: what a reader that knows the header forms finds in the packet that carries the
records, for any sequence of calls of `updateVPlayer`.
-/
import NetrekServer.Short.Layout
import NetrekServer.Short.Players

namespace Netrek.Short

open Netrek.Lib

/-! ## The reader -/

/-- My own ship, in the big header. -/
structure OwnRead where
  dir : UInt8
  speed : UInt8
  x : Int
  y : Int
  deriving DecidableEq

/-- Another ship. -/
structure RecordRead where
  pnum : Nat
  speed : Nat
  dir : Nat
  galactic : Bool
  x : Nat
  y : Nat
  deriving DecidableEq

structure PlayersRead where
  own : Option OwnRead
  /-- Flags, with the number of the block of sixteen players they are for. -/
  flags : List (Nat × Word)
  records : List RecordRead
  deriving DecidableEq

/-- Four bytes, read. -/
def readRecord (a b c d : UInt8) : RecordRead where
  pnum := a.toNat % 32
  speed := b.toNat % 16
  dir := b.toNat / 16
  galactic := a.toNat.testBit 5
  x := c.toNat + 256 * (a.toNat.testBit 6).toNat
  y := d.toNat + 256 * (a.toNat.testBit 7).toNat

def readRecords : Nat → List UInt8 → List RecordRead
  | n + 1, a :: b :: c :: d :: rest => readRecord a b c d :: readRecords n rest
  | _, _ => []

/-- The packet is of the small form. -/
def isSmall (packet : List UInt8) : Bool := (packet.getD 1 0).toNat.testBit 6

/-- How many records the packet announces. -/
def announced (packet : List UInt8) : Nat := (packet.getD 1 0).toNat % 64

def headerSize (sendShort : Nat) (packet : List UInt8) : Nat :=
  if isSmall packet then if 1 < sendShort then 4 + 4 * (packet.getD 2 0).toNat else 4 else 12

def readOwn (sendShort : Nat) (packet : List UInt8) : OwnRead :=
  if 1 < sendShort then
    ⟨packet.getD 2 0, packet.getD 3 0, (Network.halfAt packet 4).toInt, (Network.halfAt packet 6).toInt⟩
  else ⟨packet.getD 2 0, packet.getD 3 0, (Network.wordAt packet 4).toInt, (Network.wordAt packet 8).toInt⟩

/-- The blocks of flags, from the one with the number in the header on. -/
def readFlags (sendShort : Nat) (packet : List UInt8) : List (Nat × Word) :=
  if 1 < sendShort then
    if isSmall packet then
      (List.range (packet.getD 2 0).toNat).map fun k =>
        ((packet.getD 3 0).toNat - k, Network.wordAt packet (4 + 4 * k))
    else [(0, Network.wordAt packet 8)]
  else []

/-- The packet, read; `none` if it is of another kind, or too short for what it announces. -/
def readPlayers (sendShort : Nat) (packet : List UInt8) : Option PlayersRead :=
  if packet.head? = some spSPlayer ∧ headerSize sendShort packet + 4 * announced packet ≤ packet.length then
    some ⟨if isSmall packet then none else some (readOwn sendShort packet), readFlags sendShort packet,
      readRecords (announced packet) (packet.drop (headerSize sendShort packet))⟩
  else none

/-! ## Records -/

theorem and_256 (w : Word) : w &&& 256 = if w.getLsbD 8 then 256 else 0 := by
  have h : (256 : Word) = BitVec.twoPow 32 8 := by decide
  rw [h, BitVec.and_twoPow]
  rfl

/-- The first byte of a record. -/
theorem firstByte (i : Slot) (x y g : Bool) :
    let a := UInt8.ofNat i.val ||| UInt8.ofBitVec (((if x then 256 else 0 : Word) >>> 2).setWidth 8) |||
      UInt8.ofBitVec (((if y then 256 else 0 : Word) >>> 1).setWidth 8) ||| (if g then 32 else 0)
    a.toNat % 32 = i.val ∧ a.toNat.testBit 5 = g ∧ a.toNat.testBit 6 = x ∧ a.toNat.testBit 7 = y := by
  revert i x y g
  decide +kernel

/-- The second byte of a record. -/
theorem secondByte (speed dir : UInt8) :
    let b := (speed &&& (0x0f : UInt8)) ||| (rosette dir <<< (4 : UInt8))
    b.toNat % 16 = speed.toNat % 16 ∧ b.toNat / 16 = (rosette dir).toNat := by
  have hr : (rosette dir).toNat < 16 := by
    unfold rosette
    rw [UInt8.toNat_ofNat']
    omega
  have hs : (speed &&& (0x0f : UInt8)).toNat = speed.toNat % 16 := by
    rw [UInt8.toNat_and]
    exact Nat.and_two_pow_sub_one_eq_mod _ 4
  have hd : (rosette dir <<< (4 : UInt8)).toNat = 2 ^ 4 * (rosette dir).toNat := by
    rw [UInt8.toNat_shiftLeft]
    show (rosette dir).toNat <<< 4 % 2 ^ 8 = _
    rw [Nat.shiftLeft_eq]
    omega
  have hlt : speed.toNat % 16 < 2 ^ 4 := Nat.mod_lt _ (by decide)
  dsimp only
  rw [UInt8.toNat_or, hs, hd, Nat.or_comm, ← Nat.two_pow_add_eq_or_of_lt hlt]
  omega

/-- A coordinate in nine bits. -/
theorem nineBits {d : Int} (h₀ : 0 ≤ d) (h : d < 512) :
    (UInt8.ofBitVec ((BitVec.ofInt 32 d &&& 0xff).setWidth 8)).toNat + 256 * ((BitVec.ofInt 32 d).getLsbD 8).toNat =
      d.toNat := by
  obtain ⟨v, rfl⟩ := Int.eq_ofNat_of_zero_le h₀
  have hv : v < 512 := by omega
  have hlow : (v &&& 0xff) % 2 ^ 8 = v % 256 := by
    rw [show 0xff = 2 ^ 8 - 1 from rfl, Nat.and_two_pow_sub_one_eq_mod, Nat.mod_mod]
  simp only [BitVec.ofInt_natCast, UInt8.toNat_ofBitVec, BitVec.toNat_setWidth, BitVec.toNat_and, BitVec.toNat_ofNat,
    Int.toNat_natCast, BitVec.getLsbD_ofNat, Nat.testBit_eq_decide_div_mod_eq]
  rw [Nat.mod_eq_of_lt (show v < 2 ^ 32 by omega)]
  have h255 : BitVec.toNat (255 : Word) = 0xff := by decide
  rw [h255, hlow]
  by_cases h8 : v / 2 ^ 8 % 2 = 1
  · simp only [h8, decide_true, Bool.and_true]
    show v % 256 + 256 * 1 = v
    omega
  · simp only [h8, decide_false, Bool.and_false]
    show v % 256 + 256 * 0 = v
    omega

/-- A record is read back. -/
theorem readRecord_recordBytes (p : PlayerSpacket) (g : Bool) {dx dy : Int} (hx₀ : 0 ≤ dx) (hx : dx < 512)
    (hy₀ : 0 ≤ dy) (hy : dy < 512) (n : Nat) (rest : List UInt8) :
    readRecords (n + 1) (recordBytes p (if g then 32 else 0) dx dy ++ rest) =
      ⟨p.pnum.val, p.speed.toNat % 16, (rosette p.dir).toNat, g, dx.toNat, dy.toNat⟩ :: readRecords n rest := by
  obtain ⟨h0, h5, h6, h7⟩ := firstByte p.pnum ((BitVec.ofInt 32 dx).getLsbD 8) ((BitVec.ofInt 32 dy).getLsbD 8) g
  obtain ⟨hs, hd⟩ := secondByte p.speed p.dir
  have hxs := nineBits hx₀ hx
  have hys := nineBits hy₀ hy
  unfold recordBytes
  dsimp only
  rw [and_256, and_256]
  show readRecord _ _ _ _ :: readRecords n rest = _
  refine congrArg (fun r => r :: readRecords n rest) ?_
  unfold readRecord
  rw [h0, h5, h6, h7, hs, hd, hxs, hys]

/-! ## Collecting -/

/-- The calls for other players. -/
def VScreen.others (s : VScreen) (ps : List PlayerSpacket) : List PlayerSpacket := ps.filter fun p => p.pnum != s.me

/-- The last call for my own ship. -/
def VScreen.own (s : VScreen) (ps : List PlayerSpacket) : Option PlayerSpacket :=
  (ps.filter fun p => p.pnum == s.me).getLast?

theorem length_record (s : VScreen) (p : PlayerSpacket) : (s.record p).length = 4 := by
  unfold VScreen.record recordBytes
  split <;> rfl

theorem length_records (s : VScreen) (ps : List PlayerSpacket) : (ps.flatMap s.record).length = 4 * ps.length := by
  simp [List.length_flatMap, length_record, Nat.mul_comm]

/-- Of the header, what is not filled with my own ship in S_P2 are the flags. -/
theorem length_ownBytes (s : VScreen) (p : PlayerSpacket) :
    (s.ownBytes p).length = if 1 < s.sendShort then 6 else 10 := by
  unfold VScreen.ownBytes Network.half Network.word
  split <;> rfl

/-- The screen after some calls of `updateVPlayer`. -/
structure Collected (s : VScreen) (ps : List PlayerSpacket) (s' : VScreen) : Prop where
  mem : s'.mem = s.mem
  me : s'.me = s.me
  sendShort : s'.sendShort = s.sendShort
  flags : s'.nFlags = s.nFlags
  highest : s'.highestActivePlayer = s.highestActivePlayer
  sent : s'.sent = s.sent
  count : s'.clientVPlayerCount = 12 + 4 * (s.others ps).length
  packets : s'.clientVPlayers 1 = UInt8.ofNat (s.others ps).length
  records : s'.clientVPlayers.read 12 (4 * (s.others ps).length) = (s.others ps).flatMap s.record
  big : s'.big = (s.own ps).isSome
  own : ∀ p, s.own ps = some p → s'.clientVPlayers.read 2 (s.ownBytes p).length = s.ownBytes p

variable {s s' : VScreen} {ps : List PlayerSpacket}

theorem record_congr (hmem : s'.mem = s.mem) (hme : s'.me = s.me) : s'.record = s.record := by
  funext p
  unfold VScreen.record VScreen.farOff VScreen.player
  rw [hmem, hme]

theorem ownBytes_congr (hs : s'.sendShort = s.sendShort) : s'.ownBytes = s.ownBytes := by
  funext p
  unfold VScreen.ownBytes
  rw [hs]

theorem Collected.start (s : VScreen) : Collected s [] s.start := by
  refine ⟨rfl, rfl, rfl, rfl, rfl, rfl, rfl, ?_, rfl, rfl, fun p hp => absurd hp (Option.some_ne_none p).symm⟩
  show Function.update s.clientVPlayers 1 0 1 = _
  rw [Function.update_self]
  rfl

/-- One more call. -/
theorem Collected.step (h : Collected s ps s') (p : PlayerSpacket) : Collected s (ps ++ [p]) (s'.updateVPlayer p) := by
  have hothers : s.others (ps ++ [p]) = s.others ps ++ if p.pnum = s.me then [] else [p] := by
    unfold VScreen.others
    rw [List.filter_append]
    congr 1
    by_cases hp : p.pnum = s.me <;> simp [hp]
  have hown : s.own (ps ++ [p]) = if p.pnum = s.me then some p else s.own ps := by
    unfold VScreen.own
    rw [List.filter_append]
    by_cases hp : p.pnum = s.me <;> simp [hp]
  unfold VScreen.updateVPlayer
  by_cases hp : p.pnum = s.me
  -- my own ship: the header is filled
  · rw [if_pos (hp.trans h.me.symm)]
    rw [if_pos hp, List.append_nil] at hothers
    rw [if_pos hp] at hown
    have hlen : (s'.ownBytes p).length ≤ 10 := by
      rw [length_ownBytes]
      split <;> omega
    refine ⟨h.mem, h.me, h.sendShort, h.flags, h.highest, h.sent, ?_, ?_, ?_, ?_, fun p' hp' => ?_⟩
    · rw [hothers]
      exact h.count
    · rw [hothers]
      have hone : s'.clientVPlayers.write 2 (s'.ownBytes p) 1 = s'.clientVPlayers 1 := Cells.write_before (by decide)
      exact hone.trans h.packets
    · rw [hothers]
      exact (Cells.read_write_apart (by omega)).trans h.records
    · rw [hown]
      rfl
    · rw [hown, Option.some.injEq] at hp'
      subst hp'
      rw [← ownBytes_congr h.sendShort]
      exact Cells.read_write_self _ _ _
  -- another ship: a record behind the others
  · rw [if_neg (h.me ▸ hp)]
    rw [if_neg hp] at hothers hown
    have hlen := length_record s' p
    have hcount := h.count
    refine ⟨h.mem, h.me, h.sendShort, h.flags, h.highest, h.sent, ?_, ?_, ?_, ?_, fun p' hp' => ?_⟩
    · rw [hothers, List.length_append, List.length_singleton]
      show s'.clientVPlayerCount + 4 = _
      omega
    · rw [hothers, List.length_append, List.length_singleton]
      refine (Cells.write_before (by omega)).trans ?_
      rw [Function.update_self, h.packets]
      exact (UInt8.ofNat_add _ _).symm
    · rw [hothers, List.length_append, List.length_singleton, List.flatMap_append, ← h.records, Nat.mul_add,
        Cells.read_add]
      dsimp only
      rw [hcount]
      refine congr (congrArg HAppend.hAppend ?_) ?_
      · rw [Cells.read_write_apart (by omega)]
        refine Cells.read_congr fun k _ => ?_
        rw [Function.update_of_ne (by omega)]
      · have hread := Cells.read_write_self (Function.update s'.clientVPlayers 1 (s'.clientVPlayers 1 + 1))
          (12 + 4 * (s.others ps).length) (s'.record p)
        rw [hlen] at hread
        rw [List.flatMap_cons, List.flatMap_nil, List.append_nil, ← record_congr h.mem h.me]
        exact hread
    · rw [hown]
      exact h.big
    · rw [hown] at hp'
      have hown' := h.own p' hp'
      have hlen' : (s.ownBytes p').length ≤ 10 := by
        rw [length_ownBytes]
        split <;> omega
      refine (Cells.read_write_apart (by omega)).trans ?_
      refine (Cells.read_congr fun k _ => ?_).trans hown'
      rw [Function.update_of_ne (by omega)]

theorem Collected.run (s : VScreen) (ps : List PlayerSpacket) : Collected s ps (ps.foldl VScreen.updateVPlayer s.start) := by
  induction ps using List.reverseRecOn with
  | nil => exact Collected.start s
  | append_singleton ps p ih =>
    rw [List.foldl_append]
    exact ih.step p

/-! ## Packets -/

namespace VScreen

/-- What the big header has of my own ship. -/
def ownRead (s : VScreen) (p : PlayerSpacket) : OwnRead :=
  if 1 < s.sendShort then
    ⟨p.dir, p.speed, (((p.x + 20) / 40).setWidth 16).toInt, (((p.y + 20) / 40).setWidth 16).toInt⟩
  else ⟨p.dir, p.speed, p.x.toInt, p.y.toInt⟩

/-- The coordinates in the record of another ship. -/
def place (s : VScreen) (p : PlayerSpacket) : Int × Int :=
  if s.farOff p then galacticPlace p
  else (Screen.pixel p.x.toInt s.player.x, Screen.pixel p.y.toInt s.player.y)

/-- What the record of another ship has. -/
def recordRead (s : VScreen) (p : PlayerSpacket) : RecordRead :=
  ⟨p.pnum.val, p.speed.toNat % 16, (rosette p.dir).toNat, s.farOff p, (s.place p).1.toNat, (s.place p).2.toNat⟩

/-- The flags that go with the records. -/
def flagBlocks (s : VScreen) (own : Bool) : List (Nat × Word) :=
  if 1 < s.sendShort then
    if !own && s.upperActive then [(1, s.flagWord 1), (0, s.flagWord 0)] else [(0, s.flagWord 0)]
  else []

/-- The size of the header. -/
def headerForm (s : VScreen) (own : Bool) : Nat :=
  if own then 12 else if 1 < s.sendShort then if s.upperActive then 12 else 8 else 4

/-- The packet of flags that may follow. -/
def flagPacket (s : VScreen) : List UInt8 := [spSPlayer, 64, 1, 1] ++ Network.word (s.flagWord 1)

end VScreen

theorem galacticPlace_range (p : PlayerSpacket) :
    (0 ≤ (VScreen.galacticPlace p).1 ∧ (VScreen.galacticPlace p).1 ≤ 501) ∧
      0 ≤ (VScreen.galacticPlace p).2 ∧ (VScreen.galacticPlace p).2 ≤ 501 := by
  unfold VScreen.galacticPlace
  have hw : winside = 500 := rfl
  dsimp only
  split
  · decide
  · dsimp only
    omega

theorem vplace_range (s : VScreen) (p : PlayerSpacket) :
    (0 ≤ (s.place p).1 ∧ (s.place p).1 ≤ 501) ∧ 0 ≤ (s.place p).2 ∧ (s.place p).2 ≤ 501 := by
  unfold VScreen.place
  split
  · exact galacticPlace_range p
  · rename_i hfar
    simp only [VScreen.farOff, view_eq, Bool.or_eq_true, decide_eq_true_eq, not_or] at hfar
    have hx : 0 ≤ Screen.pixel p.x.toInt s.player.x ∧ Screen.pixel p.x.toInt s.player.x ≤ 500 :=
      pixel_range (by omega) (by omega)
    have hy : 0 ≤ Screen.pixel p.y.toInt s.player.y ∧ Screen.pixel p.y.toInt s.player.y ≤ 500 :=
      pixel_range (by omega) (by omega)
    dsimp only
    omega

/-- The records are read back, in the order of the calls. -/
theorem readRecords_records (s : VScreen) (l : List PlayerSpacket) :
    readRecords l.length (l.flatMap s.record) = l.map s.recordRead := by
  induction l with
  | nil => rfl
  | cons p l ih =>
    obtain ⟨⟨hx₀, hx⟩, hy₀, hy⟩ := vplace_range s p
    have hrecord : s.record p = recordBytes p (if s.farOff p then 32 else 0) (s.place p).1 (s.place p).2 := by
      unfold VScreen.record VScreen.place
      cases s.farOff p <;> rfl
    rw [List.flatMap_cons, hrecord, List.length_cons,
      readRecord_recordBytes p (s.farOff p) hx₀ (by omega) hy₀ (by omega), ih]
    rfl

/-- A packet is a header and the records that it announces. -/
theorem readPlayers_header {sendShort n : Nat} {packets : UInt8} {header recs : List UInt8}
    (hn : packets.toNat % 64 = n) (hsize : headerSize sendShort (spSPlayer :: packets :: header ++ recs) = 2 + header.length)
    (hrecs : recs.length = 4 * n) : readPlayers sendShort (spSPlayer :: packets :: header ++ recs) =
      some ⟨if packets.toNat.testBit 6 then none else some (readOwn sendShort (spSPlayer :: packets :: header ++ recs)),
        readFlags sendShort (spSPlayer :: packets :: header ++ recs), readRecords n recs⟩ := by
  have hannounced : announced (spSPlayer :: packets :: header ++ recs) = n := hn
  have hdrop : (spSPlayer :: packets :: header ++ recs).drop (2 + header.length) = recs := by
    rw [Nat.add_comm]
    exact List.drop_left
  unfold readPlayers
  rw [hannounced, hsize, hdrop, if_pos]
  · rfl
  · refine ⟨rfl, ?_⟩
    simp only [List.cons_append, List.length_cons, List.length_append, hrecs]
    omega

end Netrek.Short
