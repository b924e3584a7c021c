/-
Where the records say what they should: a ship beyond the left or upper edge by less than a field of the galactic map
is shown on the edge, not clipped, and in S_P2 my own position is lost when it is negative.
-/
import NetrekServer.Short.Headers

namespace Netrek.Short

open Netrek.Lib

/-! ## What should be read -/

namespace PlayerSpacket

/-- The ship is in the galaxy. -/
def inside (p : PlayerSpacket) : Prop :=
  (0 ≤ p.x.toInt ∧ p.x.toInt < gWidth) ∧ 0 ≤ p.y.toInt ∧ p.y.toInt < gWidth

instance (p : PlayerSpacket) : Decidable p.inside := inferInstanceAs (Decidable (_ ∧ _))

/-- The ship is beyond the left or the upper edge, but by less than a field of the map, and not beyond another edge. -/
def onEdge (p : PlayerSpacket) : Prop :=
  (-200 < p.x.toInt ∧ p.x.toInt < gWidth) ∧ (-200 < p.y.toInt ∧ p.y.toInt < gWidth) ∧ (p.x.toInt < 0 ∨ p.y.toInt < 0)

/-- A coordinate that fits into the header of S_P2. -/
def fits (x : Int) : Prop := -20 ≤ x ∧ x < 1310700

instance (p : PlayerSpacket) : Decidable p.onEdge := inferInstanceAs (Decidable (_ ∧ _))
instance (x : Int) : Decidable (fits x) := inferInstanceAs (Decidable (_ ∧ _))

end PlayerSpacket

namespace VScreen

/-- The coordinates that the record of another ship should have. -/
def wantedPlace (s : VScreen) (p : PlayerSpacket) : Int × Int :=
  if s.farOff p then
    if p.inside then (p.x.toInt * winside / gWidth, p.y.toInt * winside / gWidth) else (501, 501)
  else (Screen.pixel p.x.toInt s.player.x, Screen.pixel p.y.toInt s.player.y)

/-- What the record of another ship should have. -/
def wantedRecord (s : VScreen) (p : PlayerSpacket) : RecordRead :=
  ⟨p.pnum.val, p.speed.toNat % 16, (rosette p.dir).toNat, s.farOff p, (s.wantedPlace p).1.toNat, (s.wantedPlace p).2.toNat⟩

/-- What the big header should have of my own ship: in S_P2 the position divided by `SCALE`, rounded. -/
def wantedOwn (s : VScreen) (p : PlayerSpacket) : OwnRead :=
  if 1 < s.sendShort then ⟨p.dir, p.speed, (p.x.toInt + 20) / 40, (p.y.toInt + 20) / 40⟩
  else ⟨p.dir, p.speed, p.x.toInt, p.y.toInt⟩

/-- The calls of `updateVPlayer`, and `sendVPlayers`. -/
def updateAll (s : VScreen) (ps : List PlayerSpacket) : VScreen := (ps.foldl updateVPlayer s.start).sendVPlayers

end VScreen

/-- The packet that carries the records has the size of its header form and of the records it counts, and is read as what
it should have, the coordinates from 0 to 500 or both 501; the buffer holds the records. -/
def ReadBack (s : VScreen) (ps : List PlayerSpacket) : Prop :=
  12 + 4 * (s.others ps).length ≤ maxPlayer * 4 + 16 ∧
    ((s.own ps).isSome ∨ s.others ps ≠ [] → ∃ packet rest, (s.updateAll ps).sent = s.sent ++ packet :: rest ∧
      packet.length = s.headerForm (s.own ps).isSome + 4 * (s.others ps).length ∧
      (packet.getD 1 0).toNat % 64 = (s.others ps).length ∧
      ∃ r, readPlayers s.sendShort packet = some r ∧ r.own = (s.own ps).map s.wantedOwn ∧
        r.records = (s.others ps).map s.wantedRecord ∧ ∀ q ∈ r.records, (q.x ≤ 500 ∧ q.y ≤ 500) ∨ q.x = 501 ∧ q.y = 501)

variable {s : VScreen} {p : PlayerSpacket}

/-! ## Coordinates -/

theorem map_coordinate (x : Int) :
    ((x * winside).tdiv gWidth < 0 ↔ x ≤ -200) ∧ (winside ≤ (x * winside).tdiv gWidth ↔ gWidth ≤ x) ∧
      (0 ≤ x → (x * winside).tdiv gWidth = x * winside / gWidth) := by
  have hw : winside = 500 := rfl
  have hg : gWidth = 100000 := rfl
  rw [hw, hg]
  have htdiv : (x * 500).tdiv 100000 = if 0 ≤ x then x * 500 / 100000 else -(-(x * 500) / 100000) := by
    split
    · exact Int.tdiv_eq_ediv_of_nonneg (by omega)
    · rw [← Int.tdiv_eq_ediv_of_nonneg (by omega), Int.neg_tdiv, Int.neg_neg]
  rw [htdiv]
  split <;> omega

/-- A record has the coordinates that it should, except on an edge. -/
theorem place_wanted (s : VScreen) (p : PlayerSpacket) :
    ((s.place p).1.toNat = (s.wantedPlace p).1.toNat ∧ (s.place p).2.toNat = (s.wantedPlace p).2.toNat) ↔
      ¬(s.farOff p ∧ p.onEdge) := by
  unfold VScreen.place VScreen.wantedPlace
  by_cases hf : s.farOff p = true
  · rw [if_pos hf, if_pos hf]
    obtain ⟨hx, hxw, hxe⟩ := map_coordinate p.x.toInt
    obtain ⟨hy, hyw, hye⟩ := map_coordinate p.y.toInt
    have hin : p.inside ↔ (0 ≤ p.x.toInt ∧ p.x.toInt < gWidth) ∧ 0 ≤ p.y.toInt ∧ p.y.toInt < gWidth := Iff.rfl
    have hedge : s.farOff p ∧ p.onEdge ↔ (-200 < p.x.toInt ∧ p.x.toInt < gWidth) ∧ (-200 < p.y.toInt ∧ p.y.toInt < gWidth) ∧
        (p.x.toInt < 0 ∨ p.y.toInt < 0) := and_iff_right hf
    have hw : winside = 500 := rfl
    have hg : gWidth = 100000 := rfl
    rw [hedge]
    unfold VScreen.galacticPlace
    dsimp only
    split
    -- clipped: not in the galaxy, and not on an edge
    · rename_i hc
      have hout : ¬p.inside := by
        rw [hin]
        omega
      rw [if_neg hout]
      refine iff_of_true ⟨rfl, rfl⟩ ?_
      omega
    · rename_i hc
      by_cases hi : p.inside
      · rw [if_pos hi]
        rw [hin] at hi
        rw [hxe hi.1.1, hye hi.2.1]
        refine iff_of_true ⟨rfl, rfl⟩ ?_
        omega
      -- on an edge: a field of the map, not 501
      · rw [if_neg hi]
        rw [hin] at hi
        refine iff_of_false (fun he => ?_) (not_not.2 (by omega))
        have h501 : ((501 : Int), (501 : Int)).1.toNat = 501 := rfl
        rw [h501] at he
        dsimp only at he
        omega
  · rw [if_neg hf, if_neg hf]
    simp [hf]

/-- A ship near me is on the window, one far off on the map or clipped. -/
theorem wantedPlace_range (s : VScreen) (p : PlayerSpacket) :
    ((s.wantedPlace p).1.toNat ≤ 500 ∧ (s.wantedPlace p).2.toNat ≤ 500) ∨ s.wantedPlace p = (501, 501) := by
  unfold VScreen.wantedPlace
  split
  · split
    · next hi =>
      obtain ⟨⟨hx₀, hx⟩, hy₀, hy⟩ := hi
      have hw : winside = 500 := rfl
      have hg : gWidth = 100000 := rfl
      rw [hw, hg]
      rw [hg] at hx hy
      dsimp only
      omega
    · exact .inr rfl
  · next hf =>
    have hview : Screen.view = 10000 := by decide
    simp only [VScreen.farOff, hview, Bool.or_eq_true, decide_eq_true_eq, not_or, not_lt] at hf
    have hx := @pixel_range p.x.toInt s.player.x (by omega) (by omega)
    have hy := @pixel_range p.y.toInt s.player.y (by omega) (by omega)
    left
    dsimp only
    omega

/-- My own position is in the header of S_P2 if it fits. -/
theorem half_wanted (x : Word) :
    (((x + 20) / 40).setWidth 16 : BitVec 16).toInt = (x.toInt + 20) / 40 ↔ PlayerSpacket.fits x.toInt := by
  unfold PlayerSpacket.fits
  rw [BitVec.toInt_eq_toNat_cond, BitVec.toInt_eq_toNat_cond, BitVec.toNat_setWidth, BitVec.toNat_udiv, BitVec.toNat_add]
  have hx := x.isLt
  have h20 : BitVec.toNat (20 : Word) = 20 := by decide
  have h40 : BitVec.toNat (40 : Word) = 40 := by decide
  rw [h20, h40]
  generalize x.toNat = a at hx ⊢
  by_cases hneg : 2 * a < 2 ^ 32
  · have hmod : (a + 20) % 2 ^ 32 = a + 20 := Nat.mod_eq_of_lt (by omega)
    rw [if_pos hneg, hmod]
    split <;> omega
  by_cases hwrap : a + 20 < 2 ^ 32
  -- a negative coordinate is far too large without its sign
  · rw [if_neg hneg, Nat.mod_eq_of_lt hwrap]
    refine iff_of_false (fun he => ?_) (by omega)
    split at he <;> omega
  · have hmod : (a + 20) % 2 ^ 32 = a + 20 - 2 ^ 32 := by omega
    rw [if_neg hneg, hmod]
    split <;> omega

theorem own_wanted (s : VScreen) (p : PlayerSpacket) :
    s.ownRead p = s.wantedOwn p ↔ (1 < s.sendShort → PlayerSpacket.fits p.x.toInt ∧ PlayerSpacket.fits p.y.toInt) := by
  unfold VScreen.ownRead VScreen.wantedOwn
  split
  · rename_i hs
    rw [OwnRead.mk.injEq, half_wanted, half_wanted]
    simp [hs]
  · rename_i hs
    simp [hs]

theorem record_wanted (s : VScreen) (p : PlayerSpacket) : s.recordRead p = s.wantedRecord p ↔ ¬(s.farOff p ∧ p.onEdge) := by
  unfold VScreen.recordRead VScreen.wantedRecord
  rw [RecordRead.mk.injEq, ← place_wanted]
  simp

theorem length_others (s : VScreen) (ps : List PlayerSpacket) (h : (ps.map PlayerSpacket.pnum).Nodup) :
    (s.others ps).length ≤ 32 := by
  have hsub : ((s.others ps).map PlayerSpacket.pnum).Nodup := h.sublist (List.filter_sublist.map _)
  have hcard := hsub.length_le_card
  rwa [List.length_map, Fintype.card_fin] at hcard

/-- For any sequence of calls for distinct players the records are read back as what they should be, and so is my own
ship, exactly if no ship on the galactic map is just beyond the left or the upper edge, and in S_P2 my position fits. -/
theorem vPlayers_readBack (s : VScreen) (ps : List PlayerSpacket) (hps : (ps.map PlayerSpacket.pnum).Nodup) :
    ReadBack s ps ↔ (∀ p ∈ s.others ps, ¬(s.farOff p ∧ p.onEdge)) ∧
      ∀ p, s.own ps = some p → 1 < s.sendShort → PlayerSpacket.fits p.x.toInt ∧ PlayerSpacket.fits p.y.toInt := by
  have hlen := length_others s ps hps
  have hcollected := (Collected.run s ps).withType
  have htype : Function.update (ps.foldl VScreen.updateVPlayer s.start).clientVPlayers 0 spSPlayer 0 = spSPlayer :=
    Function.update_self _ _ _
  obtain ⟨-, hsent⟩ := sendRecords_sent hcollected htype (by omega)
  have hbuffer : 12 + 4 * (s.others ps).length ≤ maxPlayer * 4 + 16 := by
    show _ ≤ 32 * 4 + 16
    omega
  constructor
  · rintro ⟨-, h⟩
    by_cases hsome : (s.own ps).isSome ∨ s.others ps ≠ []
    · obtain ⟨packet, hcarries, hpacket⟩ := hsent hsome
      obtain ⟨packet', rest, hpacket', -, -, r, hr, hown, hrecords, -⟩ := h hsome
      have hsame : packet = packet' := by
        have heq := hpacket.symm.trans hpacket'
        rw [List.append_assoc, List.append_cancel_left_eq, List.singleton_append, List.cons.injEq] at heq
        exact heq.1
      subst hsame
      rw [hcarries.read, Option.some.injEq] at hr
      subst hr
      refine ⟨fun p hp => ?_, fun p hp => ?_⟩
      · rw [← record_wanted]
        exact List.map_eq_map_iff.1 hrecords p hp
      · rw [← own_wanted]
        rw [hp] at hown
        exact Option.some.inj hown
    · rw [not_or, Bool.not_eq_true, Option.isSome_eq_false_iff, Option.isNone_iff_eq_none, not_not] at hsome
      obtain ⟨hown, hothers⟩ := hsome
      rw [hown, hothers]
      exact ⟨fun p hp => absurd hp List.not_mem_nil, fun p hp => absurd hp (Option.some_ne_none p).symm⟩
  · rintro ⟨hedge, hfit⟩
    refine ⟨hbuffer, fun hsome => ?_⟩
    obtain ⟨packet, hcarries, hpacket⟩ := hsent hsome
    rw [List.append_assoc, List.singleton_append] at hpacket
    have hrecords : (s.others ps).map s.recordRead = (s.others ps).map s.wantedRecord :=
      List.map_congr_left fun p hp => (record_wanted s p).2 (hedge p hp)
    refine ⟨packet, _, hpacket, hcarries.size, hcarries.count, _, hcarries.read, ?_, hrecords, fun q hq => ?_⟩
    · cases hown : s.own ps with
      | none => rfl
      | some p => exact congrArg some ((own_wanted s p).2 (hfit p hown))
    · have hq' : q ∈ (s.others ps).map s.wantedRecord := hrecords ▸ hq
      obtain ⟨p, -, rfl⟩ := List.mem_map.1 hq'
      refine (wantedPlace_range s p).imp id fun h501 => ?_
      unfold VScreen.wantedRecord
      rw [h501]
      exact ⟨rfl, rfl⟩

/-- A client in the corner of the galaxy, for whom nothing has been sent yet. -/
def corner (sendShort : Nat) : VScreen := { (default : VScreen) with sendShort := sendShort }

/-- Two ships, one of them my own and far from the corner. -/
theorem vPlayers_readBack_corner :
    ReadBack (corner 2) [⟨1, 16, 5, 70000, 30000⟩, ⟨0, 200, 9, 1000, 2000⟩] :=
  (vPlayers_readBack (corner 2) [⟨1, 16, 5, 70000, 30000⟩, ⟨0, 200, 9, 1000, 2000⟩] (by decide)).2
    ⟨by decide +kernel, fun p hp hs => by
      have howner : some (⟨0, 200, 9, 1000, 2000⟩ : PlayerSpacket) = some p := hp
      cases howner
      decide +kernel⟩

/-- A cloaked ship whose reported position is off the left edge is shown on it. -/
theorem vPlayers_edge : ¬ReadBack (corner 1) [⟨1, 0, 15, BitVec.ofInt 32 (-100), 50000⟩] := by
  rintro ⟨-, h⟩
  obtain ⟨packet, rest, hpacket, -, -, r, hr, -, hrecords, -⟩ := h (Or.inr (by decide +kernel))
  have hsent : ((corner 1).updateAll [⟨1, 0, 15, BitVec.ofInt 32 (-100), 50000⟩]).sent =
      [] ++ [45, 65, 0, 0, 33, 15, 0, 250] :: [] := by decide +kernel
  have hwanted : ((corner 1).others [⟨1, 0, 15, BitVec.ofInt 32 (-100), 50000⟩]).map (corner 1).wantedRecord =
      [⟨1, 15, 0, true, 501, 501⟩] := by decide +kernel
  have hread : readPlayers (corner 1).sendShort [45, 65, 0, 0, 33, 15, 0, 250] =
      some ⟨none, [], [⟨1, 15, 0, true, 0, 250⟩]⟩ := by decide +kernel
  obtain ⟨rfl, rfl⟩ := List.cons.inj (hsent.symm.trans hpacket)
  rw [hread] at hr
  cases hr
  rw [hwanted] at hrecords
  exact absurd hrecords (by decide)

end Netrek.Short
