/-
What `SupdateTorps` does with one group of torps: which of them are in the packet, where the fields lie in the
buffer, and the infos behind them.
-/
import NetrekServer.Lib.Packed
import NetrekServer.Short.Torps

namespace Netrek.Short

open Netrek.Lib
open Netrek.Lib.Packed (Packs)

/-! ## What is told of a torp -/

namespace Screen

/-- The wars of a torp as the client is to know them. -/
def warOf (s : Screen) (k : Nat) : Word := if s.own k then s.uwar k else s.uwar k &&& s.player.team

/-- The client knows the wars of the torp. -/
def warKnown (s : Screen) (k : Nat) : Bool := s.warOf k == (s.clientTorpsInfo k).war.signExtend 32

/-- A position of the torp is sent. -/
def shows (s : Screen) (k : Nat) : Bool :=
  let status := (s.mem.torps k).status
  (if s.own k then !s.fullWeaponResolution && !(s.warKnown k && status == .tfree && (s.clientTorpsInfo k).status != some .tfree)
    else !s.outOfView k) && s.moved k

/-- An info of the torp is sent. -/
def tells (s : Screen) (k : Nat) : Bool :=
  let status := (s.mem.torps k).status
  (if s.own k then !s.fullWeaponResolution else !s.outOfView k) &&
    (!s.warKnown k || (some status != (s.clientTorpsInfo k).status &&
      (if status = .tfree then (s.clientTorpsInfo k).status == some .texplode else status != .tmove)))

/-- The torp is clipped. -/
def clipped (s : Screen) (k : Nat) : Bool := s.own k && s.offScreen k

/-- The coordinates that are sent. -/
def place (s : Screen) (k : Nat) : Int × Int :=
  if s.clipped k then (501, 501)
  else (pixel (s.mem.torps k).x s.player.x, pixel (s.mem.torps k).y s.player.y)

/-- The info that is sent. -/
def infoOf (s : Screen) (k : Nat) : UInt8 := infoByte ((s.warOf k).setWidth 8) (s.mem.torps k).status

/-- The torps of a group that are in the packet. -/
def shown (s : Screen) (j n : Nat) : List Nat := (List.range n).filter fun i => s.shows (8 * j + i)

def told (s : Screen) (j n : Nat) : List Nat := (List.range n).filter fun i => s.tells (8 * j + i)

/-- The fields, two for each torp. -/
def fields (s : Screen) (j n : Nat) : List Nat :=
  (s.shown j n).flatMap fun i => [(s.place (8 * j + i)).1.toNat, (s.place (8 * j + i)).2.toNat]

end Screen

/-- The coordinates of a torp in view are on the window. -/
theorem pixel_range {t me : Int} (h : -10000 ≤ t - me) (h' : t - me ≤ 10000) :
    0 ≤ Screen.pixel t me ∧ Screen.pixel t me ≤ 500 := by
  unfold Screen.pixel scale winside
  have ht : t.tdiv 40 = if 0 ≤ t then t / 40 else -(-t / 40) := by
    split
    · exact Int.tdiv_eq_ediv_of_nonneg (by omega)
    · rw [← Int.tdiv_eq_ediv_of_nonneg (by omega), Int.neg_tdiv, Int.neg_neg]
  have hm : me.tdiv 40 = if 0 ≤ me then me / 40 else -(-me / 40) := by
    split
    · exact Int.tdiv_eq_ediv_of_nonneg (by omega)
    · rw [← Int.tdiv_eq_ediv_of_nonneg (by omega), Int.neg_tdiv, Int.neg_neg]
  rw [ht, hm]
  split <;> split <;> omega

theorem view_eq : Screen.view = 10000 := by decide

/-- A torp that is not clipped is on the window. -/
theorem place_in {s : Screen} {k : Nat} (h : s.shows k) (hclip : s.clipped k = false) :
    (0 ≤ (s.place k).1 ∧ (s.place k).1 ≤ 500) ∧ 0 ≤ (s.place k).2 ∧ (s.place k).2 ≤ 500 := by
  have hin : -10000 ≤ (s.mem.torps k).x - s.player.x ∧ (s.mem.torps k).x - s.player.x ≤ 10000 ∧
      -10000 ≤ (s.mem.torps k).y - s.player.y ∧ (s.mem.torps k).y - s.player.y ≤ 10000 := by
    by_cases ho : s.own k
    · simp only [Screen.clipped, ho, Bool.true_and, Screen.offScreen, view_eq, Bool.or_eq_false_iff,
        decide_eq_false_iff_not] at hclip
      omega
    · have hv : s.outOfView k = false := by
        simp only [Screen.shows, ho] at h
        simpa using (Bool.and_eq_true_iff.1 h).1
      simp only [Screen.outOfView, Bool.or_eq_false_iff, decide_eq_false_iff_not] at hv
      have hscale : scale * winside / 2 = 10000 := by decide
      rw [hscale] at hv
      omega
  unfold Screen.place
  rw [hclip]
  exact ⟨pixel_range hin.1 hin.2.1, pixel_range hin.2.2.1 hin.2.2.2⟩

theorem place_clipped {s : Screen} {k : Nat} (hclip : s.clipped k = true) : s.place k = (501, 501) := by
  unfold Screen.place
  rw [hclip]
  rfl

theorem place_range {s : Screen} {k : Nat} (h : s.shows k) :
    (0 ≤ (s.place k).1 ∧ (s.place k).1 < 502) ∧ 0 ≤ (s.place k).2 ∧ (s.place k).2 < 502 := by
  cases hclip : s.clipped k
  · obtain ⟨hx, hy⟩ := place_in h hclip
    omega
  · rw [place_clipped hclip]
    decide

/-- Only a clipped torp has 501 for a coordinate, and it has it for both. -/
theorem place_fst_eq {s : Screen} {k : Nat} (h : s.shows k) : (s.place k).1 = 501 ↔ s.clipped k := by
  refine ⟨fun h501 => ?_, fun hclip => congrArg Prod.fst (place_clipped hclip)⟩
  by_contra hclip
  have hin := place_in h (Bool.eq_false_iff.2 hclip)
  omega

theorem place_snd_eq {s : Screen} {k : Nat} (h : s.shows k) : (s.place k).2 = 501 ↔ s.clipped k := by
  refine ⟨fun h501 => ?_, fun hclip => congrArg Prod.snd (place_clipped hclip)⟩
  by_contra hclip
  have hin := place_in h (Bool.eq_false_iff.2 hclip)
  omega

/-! ## Fields -/

/-- The fields are in the buffer, from the fifth byte on. -/
structure Laid (g : Group) (fs : List Nat) : Prop where
  start : 4 ≤ g.torpXy
  bits : 9 * fs.length = 8 * (g.torpXy - 4) + g.shift
  packs : Packs 9 (g.clientVTorps.read 4 (g.torpXy - 4) ++ [g.clientVTorps g.torpXy]) fs

variable {g : Group} {fs : List Nat}

theorem read_update_behind {v : Cells UInt8} {n m : Nat} (b : UInt8) (h : 4 + n ≤ m) :
    (show Cells UInt8 from Function.update v m b).read 4 n = v.read 4 n := by
  refine Cells.read_congr fun k hk => ?_
  rw [Function.update_of_ne (by omega)]

theorem ofInt_shift {d : Int} {r : Nat} (h₀ : 0 ≤ d) (h : d < 512) (hr : r < 8) :
    (BitVec.ofInt 32 d <<< r).toNat = d.toNat * 2 ^ r := by
  obtain ⟨v, rfl⟩ := Int.eq_ofNat_of_zero_le h₀
  have hpow : 2 ^ r ≤ 2 ^ 7 := Nat.pow_le_pow_right (by omega) (by omega)
  have hlt : v * 2 ^ r < 2 ^ 32 := by
    calc v * 2 ^ r ≤ 512 * 2 ^ 7 := Nat.mul_le_mul (by omega) hpow
      _ < 2 ^ 32 := by norm_num
  simp only [BitVec.toNat_shiftLeft, BitVec.ofInt_natCast, BitVec.toNat_ofNat, Nat.shiftLeft_eq, Int.toNat_natCast]
  rw [Nat.mod_eq_of_lt (a := v) (by omega), Nat.mod_eq_of_lt hlt]

/-- A field is put behind the others, over two bytes at most. -/
theorem laid_put (h : Laid g fs) (hs : g.shift < 8) {d : Int} (h₀ : 0 ≤ d) (hd : d < 512) :
    Laid (g.put d) (fs ++ [d.toNat]) := by
  have hshift := ofInt_shift h₀ hd hs
  have hstart := h.start
  have hv : d.toNat < 2 ^ 9 := by omega
  have hpow : 2 ^ g.shift ≤ 2 ^ 7 := Nat.pow_le_pow_right (by omega) (by omega)
  have hhi : d.toNat * 2 ^ g.shift / 256 < 256 := by
    have : d.toNat * 2 ^ g.shift ≤ 511 * 2 ^ 7 := Nat.mul_le_mul (by omega) hpow
    omega
  constructor
  · show 4 ≤ g.torpXy + 1
    omega
  · show 9 * (fs ++ [d.toNat]).length = 8 * (g.torpXy + 1 - 4) + (g.shift + 1)
    have hbits := h.bits
    rw [List.length_append, List.length_singleton]
    omega
  · have hsnoc := h.packs.snoc (l := UInt8.ofBitVec ((BitVec.ofInt 32 d <<< g.shift &&& 255).setWidth 8))
      (u := UInt8.ofBitVec ((BitVec.ofInt 32 d <<< g.shift >>> 8 &&& 255).setWidth 8)) (r := g.shift) (v := d.toNat)
      (by omega) (by rw [Cells.length_read]; exact h.bits) (by omega) hv
      (by
        simp only [UInt8.toNat_ofBitVec, BitVec.toNat_setWidth, BitVec.toNat_and, hshift]
        show (_ &&& 255) % 2 ^ 8 = _
        rw [show 255 = 2 ^ 8 - 1 from rfl, Nat.and_two_pow_sub_one_eq_mod, Nat.mod_mod])
      (by
        simp only [UInt8.toNat_ofBitVec, BitVec.toNat_setWidth, BitVec.toNat_and, BitVec.toNat_ushiftRight, hshift]
        show (_ &&& 255) % 2 ^ 8 = _
        rw [show 255 = 2 ^ 8 - 1 from rfl, Nat.and_two_pow_sub_one_eq_mod, Nat.mod_mod, Nat.shiftRight_eq_div_pow]
        exact Nat.mod_eq_of_lt hhi)
    have hlen : g.torpXy + 1 - 4 = g.torpXy - 4 + 1 := by omega
    have hlast : 4 + (g.torpXy - 4) = g.torpXy := by omega
    unfold Group.put
    dsimp only
    rw [hlen, Cells.read_add, read_update_behind _ (by omega), read_update_behind _ (by omega), Function.update_self]
    have hone : ∀ w : Cells UInt8, w.read (4 + (g.torpXy - 4)) 1 = [w g.torpXy] := by
      intro w
      rw [hlast]
      rfl
    rw [hone, Function.update_of_ne (by omega), Function.update_self]
    exact hsnoc

/-- When a byte is full the shift begins anew in the next. -/
theorem laid_carry (h : Laid g fs) (hs : g.shift ≤ 8) : Laid g.carry fs ∧ g.carry.shift < 8 := by
  unfold Group.carry
  split
  · rename_i h8
    have hstart := h.start
    refine ⟨⟨?_, ?_, ?_⟩, Nat.zero_lt_succ 7⟩
    · show 4 ≤ g.torpXy + 1
      omega
    · show 9 * fs.length = 8 * (g.torpXy + 1 - 4) + 0
      have hbits := h.bits
      omega
    · have hlen : g.torpXy + 1 - 4 = g.torpXy - 4 + 1 := by omega
      have hlast : 4 + (g.torpXy - 4) = g.torpXy := by omega
      dsimp only
      rw [hlen, Cells.read_add, read_update_behind _ (by omega), Function.update_self]
      have hone : (show Cells UInt8 from Function.update g.clientVTorps (g.torpXy + 1) 0).read (4 + (g.torpXy - 4)) 1 =
          [g.clientVTorps g.torpXy] := by
        rw [hlast]
        show [Function.update g.clientVTorps (g.torpXy + 1) 0 g.torpXy] = _
        rw [Function.update_of_ne (by omega)]
      rw [hone]
      exact h.packs.clear
  · exact ⟨h, by omega⟩

/-! ## One torp -/

theorem has_bit {b : UInt8} {i m : Nat} (hi : i < 8) : (b ||| bit i).toNat.testBit m = (b.toNat.testBit m || decide (m = i)) := by
  have hb : (bit i).toNat = 2 ^ i := by
    have hpow : 2 ^ i ≤ 2 ^ 7 := Nat.pow_le_pow_right (by omega) (by omega)
    unfold bit
    rw [UInt8.toNat_ofNat', Nat.one_shiftLeft]
    exact Nat.mod_eq_of_lt (by omega)
  rw [UInt8.toNat_or, Nat.testBit_or, hb, Nat.testBit_two_pow]
  congr 1
  simp [eq_comm]

theorem shown_succ (s : Screen) (j n : Nat) :
    s.shown j (n + 1) = s.shown j n ++ if s.shows (8 * j + n) then [n] else [] := by
  unfold Screen.shown
  rw [List.range_succ, List.filter_append]
  congr 1
  simp only [List.filter_cons, List.filter_nil]

theorem told_succ (s : Screen) (j n : Nat) :
    s.told j (n + 1) = s.told j n ++ if s.tells (8 * j + n) then [n] else [] := by
  unfold Screen.told
  rw [List.range_succ, List.filter_append]
  congr 1
  simp only [List.filter_cons, List.filter_nil]

/-- The group, with the positions of `a` torps and the infos of `b` put into the packet; shadows from `c` on, and of the
other groups, are as they were. -/
structure Scanned (s : Screen) (j a b c : Nat) (g : Group) : Prop where
  mem : g.mem = s.mem
  me : g.me = s.me
  full : g.fullWeaponResolution = s.fullWeaponResolution
  sent : g.sent = s.sent
  shadow : ∀ k, k < 8 * j ∨ 8 * j + c ≤ k → g.clientTorpsInfo k = s.clientTorpsInfo k ∧ g.clientTorps k = s.clientTorps k
  torpbits : ∀ m, g.torpbitset.toNat.testBit m = decide (m ∈ s.shown j a)
  num : g.numtorps = (s.shown j a).length
  laid : Laid g (s.fields j a)
  shift : g.shift < 8
  infobits : ∀ m, g.infobitset.toNat.testBit m = decide (m ∈ s.told j b)
  infos : g.clientVTorpsInfo.read 0 g.tinfo = (s.told j b).map fun i => s.infoOf (8 * j + i)

namespace Scanned

variable {s : Screen} {j a b c n : Nat}

theorem info_length (h : Scanned s j a b c g) : g.tinfo = (s.told j b).length := by
  have hlen := congrArg List.length h.infos
  simpa using hlen

theorem told_no (h : Scanned s j a n c g) (ht : s.tells (8 * j + n) = false) : Scanned s j a (n + 1) c g := by
  have hsucc : s.told j (n + 1) = s.told j n := by simp [told_succ, ht]
  exact ⟨h.mem, h.me, h.full, h.sent, h.shadow, h.torpbits, h.num, h.laid, h.shift, hsucc ▸ h.infobits, hsucc ▸ h.infos⟩

theorem shown_no (h : Scanned s j n b c g) (hs : s.shows (8 * j + n) = false) : Scanned s j (n + 1) b c g := by
  have hsucc : s.shown j (n + 1) = s.shown j n := by simp [shown_succ, hs]
  have hfields : s.fields j (n + 1) = s.fields j n := by
    unfold Screen.fields
    rw [hsucc]
  exact ⟨h.mem, h.me, h.full, h.sent, h.shadow, hsucc ▸ h.torpbits, hsucc ▸ h.num, hfields ▸ h.laid, h.shift, h.infobits,
    h.infos⟩

/-- The info of a torp is put into the packet. -/
theorem told_yes (h : Scanned s j a n c g) (hn : n < 8) (ht : s.tells (8 * j + n)) {war : BitVec 8} {status : TStatus}
    (hbyte : infoByte war status = s.infoOf (8 * j + n)) : Scanned s j a (n + 1) c (g.putInfo n war status) := by
  have hsucc : s.told j (n + 1) = s.told j n ++ [n] := by simp [told_succ, ht]
  refine ⟨h.mem, h.me, h.full, h.sent, h.shadow, h.torpbits, h.num, ⟨h.laid.start, h.laid.bits, h.laid.packs⟩, h.shift,
    fun m => ?_, ?_⟩
  · show (g.infobitset ||| bit n).toNat.testBit m = _
    rw [has_bit hn, h.infobits, hsucc]
    simp only [List.mem_append, List.mem_singleton, Bool.decide_or]
  · show Cells.read _ 0 (g.tinfo + 1) = _
    rw [Cells.read_add, hsucc, List.map_append, ← h.infos]
    congr 1
    · refine Cells.read_congr fun k hk => ?_
      exact Function.update_of_ne (by omega) _ _
    · rw [Nat.zero_add]
      show [Function.update g.clientVTorpsInfo g.tinfo (infoByte war status) g.tinfo] = _
      rw [Function.update_self, hbyte]
      rfl

/-- The position of a torp is put into the packet, in two fields. -/
theorem shown_yes (h : Scanned s j n b c g) (hn : n < 8) (hs : s.shows (8 * j + n)) :
    Scanned s j (n + 1) b c (g.putTorp n (s.place (8 * j + n)).1 (s.place (8 * j + n)).2) := by
  obtain ⟨⟨hx₀, hx⟩, hy₀, hy⟩ := place_range hs
  have hsucc : s.shown j (n + 1) = s.shown j n ++ [n] := by simp [shown_succ, hs]
  have hfields : s.fields j (n + 1) =
      s.fields j n ++ [(s.place (8 * j + n)).1.toNat] ++ [(s.place (8 * j + n)).2.toNat] := by
    unfold Screen.fields
    rw [hsucc, List.flatMap_append]
    simp
  have hlen : (s.fields j n).length = 2 * (s.shown j n).length := by
    unfold Screen.fields
    simp [List.length_flatMap, Nat.mul_comm]
  have hbits := h.laid.bits
  have hlaid : Laid { g with torpbitset := g.torpbitset ||| bit n, numtorps := g.numtorps + 1 } (s.fields j n) :=
    ⟨h.laid.start, h.laid.bits, h.laid.packs⟩
  have hshift := h.shift
  -- an even number of fields has been put, so that one more leaves the byte incomplete
  have heven : g.shift < 7 := by omega
  have hput := laid_put hlaid h.shift hx₀ (by omega)
  have hput' := laid_put hput (show g.shift + 1 < 8 by omega) hy₀ (by omega)
  obtain ⟨hcarry, hlt⟩ := laid_carry hput' (show g.shift + 1 + 1 ≤ 8 by omega)
  rw [← hfields] at hcarry
  have hsame : ∀ g' : Group, (Group.carry g').toScreen = { g'.toScreen with clientVTorps := (Group.carry g').clientVTorps } ∧
      g'.carry.torpbitset = g'.torpbitset ∧ g'.carry.numtorps = g'.numtorps ∧ g'.carry.infobitset = g'.infobitset ∧
        g'.carry.tinfo = g'.tinfo := by
    intro g'
    unfold Group.carry
    split <;> exact ⟨rfl, rfl, rfl, rfl, rfl⟩
  obtain ⟨hscreen, htorpbits, hnum, hinfobits, htinfo⟩ := hsame
    ((({ g with torpbitset := g.torpbitset ||| bit n, numtorps := g.numtorps + 1 } : Group).put
      (s.place (8 * j + n)).1).put (s.place (8 * j + n)).2)
  refine ⟨?_, ?_, ?_, ?_, ?_, fun m => ?_, ?_, hcarry, hlt, ?_, ?_⟩
  · exact (congrArg Screen.mem hscreen).trans h.mem
  · exact (congrArg Screen.me hscreen).trans h.me
  · exact (congrArg Screen.fullWeaponResolution hscreen).trans h.full
  · exact (congrArg Screen.sent hscreen).trans h.sent
  · intro k hk
    obtain ⟨hi, hp⟩ := h.shadow k hk
    exact ⟨(congrFun (congrArg Screen.clientTorpsInfo hscreen) k).trans hi,
      (congrFun (congrArg Screen.clientTorps hscreen) k).trans hp⟩
  · show (Group.carry _).torpbitset.toNat.testBit m = _
    rw [htorpbits]
    show (g.torpbitset ||| bit n).toNat.testBit m = _
    rw [has_bit hn, h.torpbits, hsucc]
    simp only [List.mem_append, List.mem_singleton, Bool.decide_or]
  · show (Group.carry _).numtorps = _
    rw [hnum, hsucc, List.length_append]
    exact congrArg (· + 1) h.num
  · intro m
    show (Group.carry _).infobitset.toNat.testBit m = _
    rw [hinfobits]
    exact h.infobits m
  · show Cells.read (Group.carry _).clientVTorpsInfo 0 (Group.carry _).tinfo = _
    rw [htinfo, congrArg Screen.clientVTorpsInfo hscreen]
    exact h.infos

/-- The shadows of the torp itself may change. -/
theorem withShadow (h : Scanned s j a b n g) {info : Nat → TorpInfo} {spot : Nat → TorpSpot} (must : Bool)
    (hi : ∀ k, k ≠ 8 * j + n → info k = g.clientTorpsInfo k) (hp : ∀ k, k ≠ 8 * j + n → spot k = g.clientTorps k) :
    Scanned s j a b (n + 1)
      { g with clientTorpsInfo := info, clientTorps := spot, mustsend := must } := by
  refine ⟨h.mem, h.me, h.full, h.sent, fun k hk => ?_, h.torpbits, h.num, ⟨h.laid.start, h.laid.bits, h.laid.packs⟩,
    h.shift, h.infobits, h.infos⟩
  have hne : k ≠ 8 * j + n := by omega
  obtain ⟨hi', hp'⟩ := h.shadow k (by omega)
  exact ⟨(hi k hne).trans hi', (hp k hne).trans hp'⟩

theorem mono (h : Scanned s j a b c g) : Scanned s j a b (c + 1) g :=
  ⟨h.mem, h.me, h.full, h.sent, fun k hk => h.shadow k (by omega), h.torpbits, h.num, h.laid, h.shift, h.infobits, h.infos⟩

theorem player_eq (h : Scanned s j a b c g) : g.player = s.player := by
  unfold Screen.player
  rw [h.mem, h.me]

theorem uwar_eq (h : Scanned s j a b c g) (k : Nat) : g.uwar k = s.uwar k := by
  unfold Screen.uwar
  rw [h.mem]

theorem own_eq (h : Scanned s j a b c g) (k : Nat) : g.own k = s.own k := by
  unfold Screen.own
  rw [h.mem, h.me]

theorem offScreen_eq (h : Scanned s j a b c g) (k : Nat) : g.offScreen k = s.offScreen k := by
  unfold Screen.offScreen
  rw [h.mem, h.player_eq]

theorem outOfView_eq (h : Scanned s j a b c g) (k : Nat) : g.outOfView k = s.outOfView k := by
  unfold Screen.outOfView
  rw [h.mem, h.player_eq]

theorem moved_eq (h : Scanned s j a b c g) {k : Nat} (hk : g.clientTorps k = s.clientTorps k) : g.moved k = s.moved k := by
  unfold Screen.moved
  rw [h.mem, hk]

theorem setWidth_back (w : Word) : ((w.setWidth 8).setWidth 32).setWidth 8 = w.setWidth 8 := by
  ext i hi
  simp

theorem setWidth_signExtend (w : BitVec 8) : (w.signExtend 32).setWidth 8 = w := by
  ext i hi
  have hlt : i < 32 := by omega
  simp [hlt, BitVec.getElem_signExtend, hi]

/-- What came of a torp's info: the info is in the packet if it is to be told, and `goes` says whether the position
follows. -/
structure Informed (s : Screen) (j n : Nat) (g : Group) (goes : Bool) : Prop where
  scanned : Scanned s j n (n + 1) (n + 1) g
  spot : goes = true → g.clientTorps (8 * j + n) = s.clientTorps (8 * j + n)
  shows : s.shows (8 * j + n) = (goes && s.moved (8 * j + n))

/-- The position of a torp follows, at these coordinates. -/
theorem Informed.spot_step (h : Informed s j n g true) (hn : n < 8) {p : Int × Int} (hp : s.place (8 * j + n) = p) :
    Scanned s j (n + 1) (n + 1) (n + 1)
      (if g.moved (8 * j + n) then (g.withScreen (g.setSpot (8 * j + n))).putTorp n p.1 p.2 else g) := by
  have hmoved := h.scanned.moved_eq (h.spot rfl)
  have hshows := h.shows
  rw [Bool.true_and, ← hmoved] at hshows
  split
  · rename_i hm
    have hset : Scanned s j n (n + 1) (n + 1) (g.withScreen (g.setSpot (8 * j + n))) := by
      have hs := h.scanned
      refine ⟨hs.mem, hs.me, hs.full, hs.sent, fun k hk => ?_, hs.torpbits, hs.num,
        ⟨hs.laid.start, hs.laid.bits, hs.laid.packs⟩, hs.shift, hs.infobits, hs.infos⟩
      obtain ⟨hi, hp⟩ := hs.shadow k hk
      refine ⟨hi, ?_⟩
      show Function.update g.clientTorps (8 * j + n) _ k = _
      rw [Function.update_of_ne (by omega)]
      exact hp
    rw [← hp]
    exact hset.shown_yes hn (hshows.trans hm)
  · rename_i hm
    exact h.scanned.shown_no (hshows.trans (Bool.eq_false_iff.2 hm))

/-- The info of the client's own torps, without full weapon resolution. -/
theorem ownInfo_spec (h : Scanned s j n n n g) (hn : n < 8) (ho : s.own (8 * j + n) = true)
    (hf : s.fullWeaponResolution = false) :
    Informed s j n (g.ownInfo (8 * j + n) n).1 (g.ownInfo (8 * j + n) n).2 := by
  obtain ⟨hi, hp⟩ := h.shadow (8 * j + n) (Or.inr (Nat.le_refl _))
  have hwar : s.warOf (8 * j + n) = s.uwar (8 * j + n) := by
    unfold Screen.warOf
    rw [if_pos ho]
  have hshows : s.shows (8 * j + n) = (!(s.warKnown (8 * j + n) && (s.mem.torps (8 * j + n)).status == .tfree &&
      (s.clientTorpsInfo (8 * j + n)).status != some .tfree) && s.moved (8 * j + n)) := by
    unfold Screen.shows
    simp only [ho, hf, if_true, Bool.not_false, Bool.true_and]
  have htells : s.tells (8 * j + n) = (!s.warKnown (8 * j + n) || (some (s.mem.torps (8 * j + n)).status !=
      (s.clientTorpsInfo (8 * j + n)).status && (if (s.mem.torps (8 * j + n)).status = .tfree then
        (s.clientTorpsInfo (8 * j + n)).status == some .texplode else (s.mem.torps (8 * j + n)).status != .tmove))) := by
    unfold Screen.tells
    simp only [ho, hf, if_true, Bool.not_false, Bool.true_and]
  have hknown : s.warKnown (8 * j + n) = (s.uwar (8 * j + n) == (s.clientTorpsInfo (8 * j + n)).war.signExtend 32) := by
    unfold Screen.warKnown
    rw [hwar]
  have hset : ∀ (war : BitVec 8) (status : TStatus), Scanned s j n n (n + 1)
      (g.withScreen (g.setInfo (8 * j + n) war status)) := fun war status =>
    h.withShadow _ (fun k hk => Function.update_of_ne hk _ _) fun _ _ => rfl
  have hinfo : ∀ status, infoByte ((s.uwar (8 * j + n)).setWidth 8) status = infoByte ((s.mem.torps (8 * j + n)).war.setWidth 8) status := by
    intro status
    unfold Screen.uwar
    rw [setWidth_back]
  have hstatus : ∀ status, Scanned s j n n (n + 1) (g.withScreen (g.setStatus (8 * j + n) status)) := fun status =>
    hset _ status
  have hof : s.infoOf (8 * j + n) =
      infoByte ((s.mem.torps (8 * j + n)).war.setWidth 8) (s.mem.torps (8 * j + n)).status := by
    unfold Screen.infoOf
    rw [hwar, hinfo]
  have hgknown : (g.uwar (8 * j + n) == (g.clientTorpsInfo (8 * j + n)).war.signExtend 32) = s.warKnown (8 * j + n) := by
    rw [h.uwar_eq, hi, hknown]
  unfold Group.ownInfo
  dsimp only
  have htorp : g.mem.torps (8 * j + n) = s.mem.torps (8 * j + n) := by rw [h.mem]
  rw [bne, hgknown, htorp, hi]
  cases hw : s.warKnown (8 * j + n)
  -- the wars have changed
  · rw [hw] at hshows htells
    exact ⟨(hset _ _).told_yes hn htells hof.symm, fun _ => hp, hshows⟩
  · rw [hw] at hshows htells
    have hbyte : infoByte (s.clientTorpsInfo (8 * j + n)).war (s.mem.torps (8 * j + n)).status = s.infoOf (8 * j + n) := by
      rw [hw, eq_comm, beq_iff_eq] at hknown
      have hwide := congrArg (BitVec.setWidth 8) hknown
      rw [setWidth_signExtend] at hwide
      rw [← hwide, hinfo, hof]
    simp only [Bool.not_true, Bool.false_or, Bool.true_and, if_true] at hshows htells ⊢
    generalize (s.mem.torps (8 * j + n)).status = status at *
    generalize s.clientTorpsInfo (8 * j + n) = tpi at *
    -- an info of the torp does not touch the group's own variables
    cases hst : (some status != tpi.status)
    · rw [hst, Bool.false_and] at htells
      refine ⟨(h.told_no htells).mono, fun _ => hp, ?_⟩
      rw [hshows]
      rw [bne_eq_false_iff_eq] at hst
      rw [← hst]
      cases status <;> rfl
    · rw [hst, Bool.true_and] at htells
      have hshown : ∀ x, x ≠ TStatus.tfree → status = x → s.shows (8 * j + n) = (true && s.moved (8 * j + n)) := by
        rintro x hx rfl
        rw [hshows, beq_eq_false_iff_ne.2 hx]
        rfl
      cases status
      -- a free torp: its last position counts as sent
      · refine ⟨?_, fun hf => absurd hf Bool.false_ne_true, ?_⟩
        · by_cases he : tpi.status = some .texplode
          · simp only [he, ↓reduceIte]
            rw [he] at htells
            exact (h.told_yes hn htells hbyte).withShadow g.mustsend (fun k hk => by exact Function.update_of_ne hk _ _)
              fun k hk => by exact Function.update_of_ne hk _ _
          · simp only [he, ↓reduceIte]
            rw [beq_eq_false_iff_ne.2 he] at htells
            exact (h.told_no htells).withShadow true (fun k hk => by exact Function.update_of_ne hk _ _)
              fun k hk => by exact Function.update_of_ne hk _ _
        · rw [hshows]
          rw [bne_comm] at hst
          simp [hst]
      · exact ⟨(hstatus _).told_no htells, fun _ => hp, hshown _ (by decide) rfl⟩
      all_goals
        exact ⟨(hstatus _).told_yes hn htells hbyte, fun _ => hp, hshown _ (by decide) rfl⟩

/-- One of the client's own torps. -/
theorem ownTorp_spec (h : Scanned s j n n n g) (hn : n < 8) (ho : s.own (8 * j + n) = true) :
    Scanned s j (n + 1) (n + 1) (n + 1) (g.ownTorp (8 * j + n) n) := by
  unfold Group.ownTorp
  rw [h.full]
  cases hf : s.fullWeaponResolution
  · have hinfo := ownInfo_spec h hn ho hf
    dsimp only
    generalize g.ownInfo (8 * j + n) n = r at hinfo ⊢
    obtain ⟨g', goes⟩ := r
    cases goes
    · exact hinfo.scanned.shown_no hinfo.shows
    · have hspot := hinfo.spot_step hn rfl
      simp only [if_true, Bool.false_eq_true, if_false] at hspot ⊢
      unfold Group.ownSpot
      have hoff := hinfo.scanned.offScreen_eq (8 * j + n)
      have hoff' : (g'.withScreen (g'.setSpot (8 * j + n))).offScreen (8 * j + n) = s.offScreen (8 * j + n) := hoff
      have hplayer : (g'.withScreen (g'.setSpot (8 * j + n))).player = s.player := hinfo.scanned.player_eq
      dsimp only
      rw [hoff', hplayer, hinfo.scanned.mem]
      unfold Screen.place Screen.clipped at hspot
      rw [ho, Bool.true_and] at hspot
      split at hspot <;> rename_i hm
      · rw [if_pos hm]
        split at hspot <;> rename_i hc
        · rw [if_pos hc]
          exact hspot
        · rw [if_neg hc]
          exact hspot
      · rw [if_neg hm]
        exact hspot
  · have hshows : s.shows (8 * j + n) = false := by
      unfold Screen.shows
      simp [ho, hf]
    have htells : s.tells (8 * j + n) = false := by
      unfold Screen.tells
      simp [ho, hf]
    exact ((h.shown_no hshows).told_no htells).mono

/-- The info of another's torp that is in view. -/
theorem otherInfo_spec (h : Scanned s j n n n g) (hn : n < 8) (ho : s.own (8 * j + n) = false)
    (hv : s.outOfView (8 * j + n) = false) :
    Informed s j n (g.otherInfo (8 * j + n) n).1 (g.otherInfo (8 * j + n) n).2 := by
  obtain ⟨hi, hp⟩ := h.shadow (8 * j + n) (Or.inr (Nat.le_refl _))
  -- the torp is another's and in view, so it is told when the war bit or the status is new
  have hwar : s.warOf (8 * j + n) = s.uwar (8 * j + n) &&& s.player.team := by
    unfold Screen.warOf
    rw [ho]
    rfl
  have hshows : s.shows (8 * j + n) = (true && s.moved (8 * j + n)) := by
    unfold Screen.shows
    simp [ho, hv]
  have hin : (s.mem.torps (8 * j + n)).status ≠ .tfree := by
    unfold Screen.outOfView at hv
    simpa using (Bool.or_eq_false_iff.1 hv).2
  have htells : s.tells (8 * j + n) = (!s.warKnown (8 * j + n) || (some (s.mem.torps (8 * j + n)).status !=
      (s.clientTorpsInfo (8 * j + n)).status && (s.mem.torps (8 * j + n)).status != .tmove)) := by
    unfold Screen.tells
    simp [ho, hv, hin]
  have hgknown : (g.uwar (8 * j + n) &&& g.player.team == (g.clientTorpsInfo (8 * j + n)).war.signExtend 32) =
      s.warKnown (8 * j + n) := by
    unfold Screen.warKnown
    rw [h.uwar_eq, h.player_eq, hi, hwar]
  -- writing the shadow of this torp leaves the scan so far alone
  have hset : ∀ (war : BitVec 8) (status : TStatus), Scanned s j n n (n + 1)
      (g.withScreen (g.setInfo (8 * j + n) war status)) := fun war status =>
    h.withShadow _ (fun k hk => Function.update_of_ne hk _ _) fun _ _ => rfl
  have hstatus : ∀ status, Scanned s j n n (n + 1) (g.withScreen (g.setStatus (8 * j + n) status)) := fun status =>
    hset _ status
  unfold Group.otherInfo
  dsimp only
  have hgknown' : (g.uwar (8 * j + n) &&& g.player.team != (g.clientTorpsInfo (8 * j + n)).war.signExtend 32) =
      !s.warKnown (8 * j + n) := congrArg not hgknown
  have htorp : g.mem.torps (8 * j + n) = s.mem.torps (8 * j + n) := by rw [h.mem]
  rw [hgknown', hgknown, htorp, hi, h.uwar_eq, h.player_eq, ← hwar]
  -- a war bit that has changed is told at once
  cases hw : s.warKnown (8 * j + n)
  · rw [hw] at htells
    rw [Bool.not_false, Bool.or_true]
    exact ⟨(hset _ _).told_yes hn htells rfl, fun _ => hp, hshows⟩
  · have hbyte : infoByte (s.clientTorpsInfo (8 * j + n)).war (s.mem.torps (8 * j + n)).status = s.infoOf (8 * j + n) := by
      unfold Screen.warKnown at hw
      rw [beq_iff_eq] at hw
      unfold Screen.infoOf
      rw [hw, setWidth_signExtend]
    rw [hw] at htells
    simp only [Bool.not_true, Bool.false_or, Bool.or_false, if_true] at htells ⊢
    -- otherwise it is the status that decides, and a moving torp needs no telling
    generalize (s.mem.torps (8 * j + n)).status = status at *
    generalize s.clientTorpsInfo (8 * j + n) = tpi at *
    cases hst : (some status != tpi.status)
    · rw [hst, Bool.false_and] at htells
      exact ⟨(h.told_no htells).mono, fun _ => hp, hshows⟩
    · rw [hst, Bool.true_and] at htells
      cases status
      · exact absurd rfl hin
      · exact ⟨(hstatus _).told_no htells, fun _ => hp, hshows⟩
      all_goals exact ⟨(hstatus _).told_yes hn htells hbyte, fun _ => hp, hshows⟩

/-- One of another's torps. -/
theorem otherTorp_spec (h : Scanned s j n n n g) (hn : n < 8) (ho : s.own (8 * j + n) = false) :
    Scanned s j (n + 1) (n + 1) (n + 1) (g.otherTorp (8 * j + n) n) := by
  unfold Group.otherTorp
  dsimp only
  rw [h.outOfView_eq]
  cases hv : s.outOfView (8 * j + n)
  · have hinfo := otherInfo_spec h hn ho hv
    generalize g.otherInfo (8 * j + n) n = r at hinfo ⊢
    obtain ⟨g', goes⟩ := r
    cases goes
    · exact hinfo.scanned.shown_no hinfo.shows
    · have hspot := hinfo.spot_step hn rfl
      simp only [if_true, Bool.false_eq_true, if_false] at hspot ⊢
      unfold Group.otherSpot
      have hplayer : (g'.withScreen (g'.setSpot (8 * j + n))).player = s.player := hinfo.scanned.player_eq
      dsimp only
      rw [hplayer, hinfo.scanned.mem]
      have hclip : s.clipped (8 * j + n) = false := by
        unfold Screen.clipped
        rw [ho]
        rfl
      unfold Screen.place at hspot
      rw [hclip] at hspot
      exact hspot
  · have hshows : s.shows (8 * j + n) = false := by
      unfold Screen.shows
      simp [ho, hv]
    have htells : s.tells (8 * j + n) = false := by
      unfold Screen.tells
      simp [ho, hv]
    have hskip : Scanned s j (n + 1) (n + 1) n g := (h.shown_no hshows).told_no htells
    rw [if_pos rfl]
    split
    · exact hskip.withShadow _ (fun k hk => Function.update_of_ne hk _ _) fun _ _ => rfl
    · split
      · exact hskip.withShadow true (fun k hk => Function.update_of_ne hk _ _) fun _ _ => rfl
      · exact hskip.mono

/-- One more torp. -/
theorem step (h : Scanned s j n n n g) (hn : n < 8) : Scanned s j (n + 1) (n + 1) (n + 1) (g.torp j n) := by
  unfold Group.torp
  rw [h.own_eq]
  cases ho : s.own (8 * j + n)
  · exact h.otherTorp_spec hn ho
  · exact h.ownTorp_spec hn ho

theorem start (s : Screen) (j : Nat) : Scanned s j 0 0 0 s.group := by
  have hzero : ∀ m, (0 : UInt8).toNat.testBit m = false := fun m => Nat.zero_testBit m
  refine ⟨rfl, rfl, rfl, rfl, fun _ _ => ⟨rfl, rfl⟩, fun m => ?_, rfl, ⟨Nat.le_refl 4, rfl, ?_⟩, Nat.zero_lt_succ 7,
    fun m => ?_, rfl⟩
  · exact hzero m
  · show Packs 9 ([] ++ [Function.update s.clientVTorps 4 0 4]) []
    rw [Function.update_self]
    exact Packs.start
  · exact hzero m

/-- All torps of the group. -/
theorem run (s : Screen) (j : Nat) : ∀ n ≤ 8, Scanned s j n n n (s.group.scan j n) := by
  intro n
  induction n with
  | zero => exact fun _ => start s j
  | succ n ih =>
    intro hn
    have h := (ih (by omega)).step (by omega)
    unfold Group.scan at h ⊢
    rw [List.range_succ, List.foldl_append]
    exact h

end Scanned

end Netrek.Short
