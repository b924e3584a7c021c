/-
The packets of `SupdateTorps` are readable back: a reader that knows the three layouts gets, for each torp that is
told of and no other, the coordinates and the info that were sent.
-/
import Mathlib.Data.List.ReduceOption
import Mathlib.Tactic.IntervalCases
import NetrekServer.Short.Layout

namespace Netrek.Short

open Netrek.Lib
open Netrek.Lib.Packed (Packs)

/-! ## The reader -/

/-- What a packet tells. -/
structure TorpsRead where
  group : UInt8
  /-- The torps of the group, in order, and their coordinates. -/
  torps : List (Nat × Nat × Nat)
  infos : List (Nat × UInt8)
  deriving DecidableEq

/-- The bits that are set, in order. -/
def members (b : UInt8) : List Nat := (List.range 8).filter fun m => b.toNat.testBit m

/-- Two fields for each torp. -/
def coordinates (data : List UInt8) (torps : List Nat) : List (Nat × Nat × Nat) :=
  torps.zipIdx.map fun (m, i) => (m, Packed.field 9 data (2 * i), Packed.field 9 data (2 * i + 1))

/-- The packet, read; `none` if it is of another kind, or too short for what its bits announce. -/
def readTorps : List UInt8 → Option TorpsRead
  | type :: which :: rest =>
    if type = spS8Torp then
      if rest.length < vtdata 8 then none else some ⟨which, coordinates rest (List.range 8), []⟩
    else
      match rest with
      | group :: data =>
        let torps := members which
        if type = spSTorp then
          if data.length < vtdata torps.length then none else some ⟨group, coordinates data torps, []⟩
        else if type = spSTorpInfo then
          match data with
          | infobits :: data =>
            let infos := members infobits
            if data.length < vtdata torps.length + infos.length then none
            else some ⟨group, coordinates data torps, infos.zip (data.drop (vtdata torps.length))⟩
          | [] => none
        else none
      | [] => none
  | _ => none

/-! ## Reading fields -/

/-- Every other element of a list of pairs. -/
theorem getElem?_pairs {α : Type} (l : List α) (x y : α → Nat) (i : Nat) :
    (l.flatMap fun m => [x m, y m])[2 * i]? = l[i]?.map x ∧ (l.flatMap fun m => [x m, y m])[2 * i + 1]? = l[i]?.map y := by
  induction l generalizing i with
  | nil => simp
  | cons a l ih =>
    rw [List.flatMap_cons]
    cases i with
    | zero => simp
    | succ i =>
      obtain ⟨ihx, ihy⟩ := ih i
      constructor
      · rw [show 2 * (i + 1) = 2 * i + 1 + 1 by omega]
        simpa using ihx
      · rw [show 2 * (i + 1) + 1 = 2 * i + 1 + 1 + 1 by omega]
        simpa using ihy

theorem coordinates_eq {data : List UInt8} {l : List Nat} {x y : Nat → Nat}
    (h : ∀ k f, (l.flatMap fun m => [x m, y m])[k]? = some f → Packed.field 9 data k = f) :
    coordinates data l = l.map fun m => (m, x m, y m) := by
  unfold coordinates
  refine List.ext_getElem (by simp) fun i hi _ => ?_
  have hi' : i < l.length := by simpa using hi
  obtain ⟨hx, hy⟩ := getElem?_pairs l x y i
  rw [List.getElem?_eq_getElem hi'] at hx hy
  have hfx := h _ _ hx
  have hfy := h _ _ hy
  simp only [List.getElem_map, List.getElem_zipIdx, Nat.zero_add, hfx, hfy]

theorem members_eq {b : UInt8} {p : Nat → Bool} (h : ∀ m, b.toNat.testBit m = decide (m ∈ (List.range 8).filter p)) :
    members b = (List.range 8).filter p := by
  unfold members
  refine List.filter_congr fun m hm => ?_
  rw [h, Bool.eq_iff_iff, decide_eq_true_eq, List.mem_filter]
  exact and_iff_right hm

theorem bits_eq_zero {b : UInt8} {l : List Nat} (h : ∀ m, b.toNat.testBit m = decide (m ∈ l)) : b = 0 ↔ l = [] := by
  constructor
  · rintro rfl
    refine List.eq_nil_iff_forall_not_mem.2 fun m hm => ?_
    have hm' := h m
    rw [decide_eq_true hm] at hm'
    exact absurd hm' (by show ¬(0 : Nat).testBit m = true; simp)
  · rintro rfl
    refine UInt8.toNat_inj.1 (Nat.eq_of_testBit_eq fun m => ?_)
    rw [h]
    simp

variable {s : Screen} {j : Nat} {g : Group}

theorem length_shown (s : Screen) (j : Nat) : (s.shown j 8).length ≤ 8 := by
  have hlen := List.length_filter_le (fun i => s.shows (8 * j + i)) (List.range 8)
  rwa [List.length_range] at hlen

theorem length_told (s : Screen) (j : Nat) : (s.told j 8).length ≤ 8 := by
  have hlen := List.length_filter_le (fun i => s.tells (8 * j + i)) (List.range 8)
  rwa [List.length_range] at hlen

theorem length_fields (s : Screen) (j n : Nat) : (s.fields j n).length = 2 * (s.shown j n).length := by
  unfold Screen.fields
  simp [List.length_flatMap, Nat.mul_comm]

theorem vtdata_eq {n : Nat} (hn : n ≤ 8) : vtdata n = (18 * n + 7) / 8 := by
  interval_cases n <;> rfl

theorem vtsize_covers {n : Nat} (hn : n ≤ 8) : 3 + vtdata n ≤ vtsize n ∧ vtsize n ≤ 24 := by
  interval_cases n <;> decide

/-- The data bytes, and whatever follows them, hold the fields. -/
theorem field_data (h : Scanned s j 8 8 8 g) (rest : List UInt8) {k f : Nat} (hf : (s.fields j 8)[k]? = some f) :
    Packed.field 9 (g.clientVTorps.read 4 (vtdata g.numtorps) ++ rest) k = f := by
  obtain ⟨hk, rfl⟩ := List.getElem?_eq_some_iff.1 hf
  have hlen := length_fields s j 8
  have hbits := h.laid.bits
  have hshift := h.shift
  have hnum := h.num
  have h8 := length_shown s j
  have hdata := vtdata_eq (n := g.numtorps) (by omega)
  have hin : (k + 1) * 9 ≤ 8 * (g.clientVTorps.read 4 (vtdata g.numtorps)).length := by
    rw [Cells.length_read]
    omega
  rw [Packed.field_append hin, ← h.laid.packs.field hk]
  by_cases hz : g.shift = 0
  · rw [show vtdata g.numtorps = g.torpXy - 4 by omega] at hin ⊢
    exact (Packed.field_append hin).symm
  · have hlast : g.clientVTorps.read 4 (g.torpXy - 4) ++ [g.clientVTorps g.torpXy] = g.clientVTorps.read 4 (vtdata g.numtorps) := by
      have hstart := h.laid.start
      rw [show vtdata g.numtorps = g.torpXy - 4 + 1 by omega, Cells.read_add]
      congr 1
      show _ = [g.clientVTorps (4 + (g.torpXy - 4))]
      rw [show 4 + (g.torpXy - 4) = g.torpXy by omega]
    rw [hlast]

/-- The torps of the group, as they are to be read. -/
def Screen.torpsRead (s : Screen) (j : Nat) : List (Nat × Nat × Nat) :=
  (s.shown j 8).map fun i => (i, (s.place (8 * j + i)).1.toNat, (s.place (8 * j + i)).2.toNat)

theorem coordinates_data (h : Scanned s j 8 8 8 g) (rest : List UInt8) :
    coordinates (g.clientVTorps.read 4 (vtdata g.numtorps) ++ rest) (s.shown j 8) = s.torpsRead j :=
  coordinates_eq fun _ _ hf => field_data h rest hf

/-! ## Packets -/

/-- The size that a packet of the group is declared to have. -/
def Screen.declared (s : Screen) (j : Nat) : Nat :=
  if s.told j 8 ≠ [] then Group.roundUp (4 + vtdata (s.shown j 8).length + (s.told j 8).length)
  else if (s.shown j 8).length = 8 then size8Torp
  else vtsize (s.shown j 8).length

/-- A packet of the group is read as what is to be told, and is as long as declared. -/
structure Readable (s : Screen) (j : Nat) (packet : List UInt8) : Prop where
  read : readTorps packet = some ⟨UInt8.ofNat j, s.torpsRead j, (s.told j 8).map fun i => (i, s.infoOf (8 * j + i))⟩
  size : packet.length = s.declared j

/-- What is in the buffer behind a header that ends where the data begins. -/
theorem read_header {v : Cells UInt8} {pos size : Nat} {header : List UInt8} (h : pos + header.length = 4)
    (hs : header.length ≤ size) :
    (v.write pos header).read pos size = header ++ v.read 4 (size - header.length) := by
  rw [show size = header.length + (size - header.length) by omega, Cells.read_add, Cells.read_write_self, h]
  congr 1
  rw [Nat.add_sub_cancel_left]
  refine Cells.read_congr fun k _ => ?_
  unfold Cells.write
  rw [if_pos (by omega), List.getElem?_eq_none (by omega)]
  rfl

theorem zip_append_right {α β : Type} (l : List α) (l' rest : List β) (h : l.length = l'.length) :
    l.zip (l' ++ rest) = l.zip l' := by
  have hzip : (l ++ []).zip (l' ++ rest) = l.zip l' ++ [].zip rest := List.zip_append h
  simpa using hzip

theorem roundUp_le (n : Nat) : n ≤ Group.roundUp n ∧ Group.roundUp n ≤ n + 3 ∧ Group.roundUp n % 4 = 0 := by
  unfold Group.roundUp
  split <;> omega

/-- What follows the data is stored behind it. -/
theorem read_behind (v : Cells UInt8) (n m : Nat) (bs : List UInt8) : ∃ rest : List UInt8, rest.length = m ∧
    (v.write (4 + n) bs).read 4 (n + bs.length + m) = v.read 4 n ++ (bs ++ rest) := by
  refine ⟨(v.write (4 + n) bs).read (4 + n + bs.length) m, Cells.length_read _ _ _, ?_⟩
  have hdata : (v.write (4 + n) bs).read 4 n = v.read 4 n := Cells.read_congr fun k hk => Cells.write_before (by omega)
  rw [Nat.add_assoc, Cells.read_add, hdata, Cells.read_add, Cells.read_write_self]

theorem readTorps_info {bits group infobits : UInt8} {data infos rest : List UInt8}
    (hd : data.length = vtdata (members bits).length) (hi : infos.length = (members infobits).length) :
    readTorps ([spSTorpInfo, bits, group, infobits] ++ (data ++ (infos ++ rest))) =
      some ⟨group, coordinates (data ++ (infos ++ rest)) (members bits), (members infobits).zip infos⟩ := by
  have h8 : spSTorpInfo ≠ spS8Torp := by decide
  have hs : spSTorpInfo ≠ spSTorp := by decide
  have hlen : ¬(data ++ (infos ++ rest)).length < vtdata (members bits).length + (members infobits).length := by
    simp only [List.length_append]
    omega
  have hdrop : (data ++ (infos ++ rest)).drop (vtdata (members bits).length) = infos ++ rest := by
    rw [← hd, List.drop_left]
  simp only [readTorps, List.cons_append, List.nil_append, if_neg h8, if_neg hs, if_pos, if_neg hlen, hdrop,
    zip_append_right _ _ _ hi.symm]

theorem readTorps_torp {bits group : UInt8} {data rest : List UInt8}
    (hd : data.length = vtdata (members bits).length) :
    readTorps ([spSTorp, bits, group] ++ (data ++ rest)) =
      some ⟨group, coordinates (data ++ rest) (members bits), []⟩ := by
  have h8 : spSTorp ≠ spS8Torp := by decide
  have hlen : ¬(data ++ rest).length < vtdata (members bits).length := by
    rw [List.length_append]
    omega
  simp only [readTorps, List.cons_append, List.nil_append, if_neg h8, if_pos, if_neg hlen]

theorem readTorps_eight {group : UInt8} {data : List UInt8} (hd : data.length = vtdata 8) :
    readTorps ([spS8Torp, group] ++ data) = some ⟨group, coordinates data (List.range 8), []⟩ := by
  have hlen : ¬data.length < vtdata 8 := by omega
  simp only [readTorps, List.cons_append, List.nil_append, if_pos, if_neg hlen]

/-- What the group sends, if anything. -/
theorem send_spec (h : Scanned s j 8 8 8 g) : ∃ packet : Option (List UInt8),
    (g.send j).sent = s.sent ++ packet.toList ∧ (∀ p, packet = some p → Readable s j p) ∧
      (packet = none → s.shown j 8 = [] ∧ s.told j 8 = []) := by
  have hinfo := bits_eq_zero h.infobits
  have htorp := bits_eq_zero h.torpbits
  have hshown : members g.torpbitset = s.shown j 8 := members_eq h.torpbits
  have htold : members g.infobitset = s.told j 8 := members_eq h.infobits
  have hnum := h.num
  have h8 := length_shown s j
  have htinfo := h.info_length
  have hlen : (g.clientVTorps.read 4 (vtdata g.numtorps)).length = vtdata (members g.torpbitset).length := by
    rw [Cells.length_read, hshown, hnum]
  have hcoord := coordinates_data h
  unfold Group.send
  split
  -- infos behind the data
  · rename_i hi
    rw [Ne, hinfo] at hi
    obtain ⟨hle, -, -⟩ := roundUp_le (4 + vtdata g.numtorps + g.tinfo)
    have hdeclared : Group.roundUp (4 + vtdata g.numtorps + g.tinfo) = s.declared j := by
      unfold Screen.declared
      rw [if_pos hi, hnum, htinfo]
    rw [hdeclared] at hle ⊢
    refine ⟨some _, congrArg (· ++ _) h.sent, ?_, fun hn => absurd hn (Option.some_ne_none _)⟩
    rintro p ⟨⟩
    have hinfos : (g.clientVTorpsInfo.read 0 g.tinfo).length = (members g.infobitset).length := by
      rw [Cells.length_read, htold, htinfo]
    obtain ⟨rest, -, hbehind⟩ := read_behind g.clientVTorps (vtdata g.numtorps)
      (s.declared j - 4 - vtdata g.numtorps - g.tinfo) (g.clientVTorpsInfo.read 0 g.tinfo)
    rw [Cells.length_read,
      show vtdata g.numtorps + g.tinfo + (s.declared j - 4 - vtdata g.numtorps - g.tinfo) = s.declared j - 4 by omega] at hbehind
    refine ⟨?_, Cells.length_read _ _ _⟩
    rw [read_header rfl (by show 4 ≤ s.declared j; omega)]
    show readTorps (_ ++ Cells.read _ 4 (s.declared j - 4)) = _
    rw [hbehind, readTorps_info hlen hinfos, hshown, htold, hcoord, h.infos, ← List.map_prod_left_eq_zip]
  rename_i hi
  rw [not_not, hinfo] at hi
  have hdeclared : s.declared j = if g.numtorps = 8 then size8Torp else vtsize g.numtorps := by
    unfold Screen.declared
    rw [if_neg (not_not.2 hi), ← hnum]
  have hsize := vtsize_covers (n := g.numtorps) (by omega)
  split
  · split
    -- all eight
    · rename_i hn
      rw [if_pos hn] at hdeclared
      refine ⟨some _, congrArg (· ++ _) h.sent, ?_, fun hn => absurd hn (Option.some_ne_none _)⟩
      rintro p ⟨⟩
      have hall : s.shown j 8 = List.range 8 := by
        unfold Screen.shown at hnum ⊢
        rw [List.filter_eq_self]
        rw [hn] at hnum
        exact List.length_filter_eq_length_iff.1 hnum.symm
      refine ⟨?_, (Cells.length_read _ _ _).trans hdeclared.symm⟩
      rw [read_header rfl (by show 2 ≤ 20; decide)]
      show readTorps (_ ++ Cells.read g.clientVTorps 4 (vtdata 8)) = _
      have hread := hcoord []
      rw [List.append_nil, hn, hall] at hread
      rw [readTorps_eight (Cells.length_read _ _ _), hi]
      exact congrArg (fun torps => some (TorpsRead.mk _ torps _)) hread
    · rename_i hn
      rw [if_neg hn] at hdeclared
      refine ⟨some _, congrArg (· ++ _) h.sent, ?_, fun hn => absurd hn (Option.some_ne_none _)⟩
      rintro p ⟨⟩
      refine ⟨?_, (Cells.length_read _ _ _).trans hdeclared.symm⟩
      rw [read_header rfl (by show 3 ≤ vtsize g.numtorps; omega)]
      show readTorps (_ ++ Cells.read g.clientVTorps 4 (vtsize g.numtorps - 3)) = _
      rw [show vtsize g.numtorps - 3 = vtdata g.numtorps + (vtsize g.numtorps - 3 - vtdata g.numtorps) by omega,
        Cells.read_add, readTorps_torp hlen, hshown, hcoord, hi]
      rfl
  · rename_i ht
    rw [not_not] at ht
    have hnone := htorp.1 ht
    rw [hnone] at hnum
    split
    -- the bitset alone
    · refine ⟨some _, congrArg (· ++ _) h.sent, ?_, fun hn => absurd hn (Option.some_ne_none _)⟩
      rintro p ⟨⟩
      refine ⟨?_, (Cells.length_read _ _ _).trans ?_⟩
      · rw [read_header rfl (by show 3 ≤ 4; decide)]
        show readTorps (_ ++ Cells.read g.clientVTorps 4 1) = _
        have hread : readTorps ([spSTorp, g.torpbitset, UInt8.ofNat j] ++
            (g.clientVTorps.read 4 (vtdata g.numtorps) ++ g.clientVTorps.read 4 1)) = _ := readTorps_torp hlen
        rw [hnum, hshown, hnone] at hread
        unfold Screen.torpsRead
        rw [hi, hnone]
        exact hread
      · rw [hdeclared, hnum]
        rfl
    · refine ⟨none, ?_, fun _ hp => absurd hp (Option.some_ne_none _).symm, fun _ => ⟨hnone, hi⟩⟩
      rw [Option.toList_none, List.append_nil]
      exact h.sent

/-! ## All groups -/

/-- A screen on which the groups before the `j`th have been dealt with. -/
structure Updated (s : Screen) (j : Nat) (s' : Screen) : Prop where
  mem : s'.mem = s.mem
  me : s'.me = s.me
  full : s'.fullWeaponResolution = s.fullWeaponResolution
  shadow : ∀ k, 8 * j ≤ k → s'.clientTorpsInfo k = s.clientTorpsInfo k ∧ s'.clientTorps k = s.clientTorps k

variable {s' : Screen}

/-- What the groups before have done to the shadows does not concern the later ones. -/
theorem shows_congr (h : Updated s j s') {k : Nat} (hk : 8 * j ≤ k) :
    s'.shows k = s.shows k ∧ s'.tells k = s.tells k ∧ s'.place k = s.place k ∧ s'.infoOf k = s.infoOf k := by
  obtain ⟨hi, hp⟩ := h.shadow k hk
  obtain ⟨hmem, hme, hfull, -⟩ := h
  obtain ⟨mem, me, full, info, spot, v, vi, must, sent⟩ := s'
  dsimp only at hmem hme hfull hi hp
  subst hmem hme hfull
  refine ⟨?_, ?_, rfl, rfl⟩
  · unfold Screen.shows Screen.warKnown Screen.moved
    dsimp only
    rw [hi, hp]
    rfl
  · unfold Screen.tells Screen.warKnown
    dsimp only
    rw [hi]
    rfl

theorem shown_congr (h : Updated s j s') : s'.shown j 8 = s.shown j 8 ∧ s'.told j 8 = s.told j 8 := by
  constructor
  · exact List.filter_congr fun i _ => (shows_congr h (Nat.le_add_right _ _)).1
  · exact List.filter_congr fun i _ => (shows_congr h (Nat.le_add_right _ _)).2.1

theorem readable_congr (h : Updated s j s') {p : List UInt8} (hp : Readable s' j p) : Readable s j p := by
  obtain ⟨hshown, htold⟩ := shown_congr h
  obtain ⟨hread, hsize⟩ := hp
  constructor
  · rw [hread]
    unfold Screen.torpsRead
    rw [hshown, htold]
    have hplace : ∀ i, s'.place (8 * j + i) = s.place (8 * j + i) ∧ s'.infoOf (8 * j + i) = s.infoOf (8 * j + i) :=
      fun i => (shows_congr h (Nat.le_add_right _ _)).2.2
    simp only [hplace]
  · rw [hsize]
    unfold Screen.declared
    rw [hshown, htold]

/-- A group is dealt with. -/
theorem Updated.step (h : Updated s j s') : Updated s (j + 1) (s'.updateGroup j) ∧ ∃ packet : Option (List UInt8),
    (s'.updateGroup j).sent = s'.sent ++ packet.toList ∧ (∀ p, packet = some p → Readable s j p) ∧
      (packet = none → s.shown j 8 = [] ∧ s.told j 8 = []) := by
  have hscan := Scanned.run s' j 8 (Nat.le_refl 8)
  obtain ⟨packet, hsent, hread, hnone⟩ := send_spec hscan
  unfold Screen.updateGroup
  refine ⟨?_, packet, hsent, fun p hp => readable_congr h (hread p hp), fun hp => ?_⟩
  · have hkeep : ((s'.group.scan j 8).send j).mem = (s'.group.scan j 8).mem ∧
        ((s'.group.scan j 8).send j).me = (s'.group.scan j 8).me ∧
        ((s'.group.scan j 8).send j).fullWeaponResolution = (s'.group.scan j 8).fullWeaponResolution ∧
        ((s'.group.scan j 8).send j).clientTorpsInfo = (s'.group.scan j 8).clientTorpsInfo ∧
        ((s'.group.scan j 8).send j).clientTorps = (s'.group.scan j 8).clientTorps := by
      generalize s'.group.scan j 8 = g
      unfold Group.send
      repeat' split
      all_goals exact ⟨rfl, rfl, rfl, rfl, rfl⟩
    obtain ⟨hmem, hme, hfull, hi, hp⟩ := hkeep
    refine ⟨hmem.trans (hscan.mem.trans h.mem), hme.trans (hscan.me.trans h.me), hfull.trans (hscan.full.trans h.full),
      fun k hk => ?_⟩
    obtain ⟨hi', hp'⟩ := hscan.shadow k (by omega)
    obtain ⟨hi'', hp''⟩ := h.shadow k (by omega)
    exact ⟨(congrFun hi k).trans (hi'.trans hi''), (congrFun hp k).trans (hp'.trans hp'')⟩
  · obtain ⟨hshown, htold⟩ := shown_congr h
    rw [← hshown, ← htold]
    exact hnone hp

/-- Each group sends one packet or none: if any, it is read as exactly the torps that are to be told of, and their
coordinates are nine bits, 501 for a clipped torp and no other; it is as long as declared, and the buffer holds it. -/
theorem supdateTorps_readable (s : Screen) : ∃ packets : List (Option (List UInt8)), packets.length = 32 ∧
    s.supdateTorps.sent = s.sent ++ packets.reduceOption ∧ ∀ j (hj : j < packets.length),
      (∀ p, packets[j] = some p → Readable s j p ∧ p.length + 2 ≤ 40) ∧
      (packets[j] = none → s.shown j 8 = [] ∧ s.told j 8 = []) ∧
      ∀ i ∈ s.shown j 8, ((s.place (8 * j + i)).1.toNat < 512 ∧ (s.place (8 * j + i)).2.toNat < 512) ∧
        ((s.place (8 * j + i)).1 = 501 ↔ s.clipped (8 * j + i)) ∧ ((s.place (8 * j + i)).2 = 501 ↔ s.clipped (8 * j + i)) ∧
        (s.clipped (8 * j + i) = false → s.place (8 * j + i) =
          ((s.mem.torps (8 * j + i)).x.tdiv scale - s.player.x.tdiv scale + winside / 2,
            (s.mem.torps (8 * j + i)).y.tdiv scale - s.player.y.tdiv scale + winside / 2)) := by
  -- the groups one by one: the packets so far answer to the groups so far
  have hrun : ∀ n, ∃ packets : List (Option (List UInt8)), packets.length = n ∧
      Updated s n ((List.range n).foldl Screen.updateGroup { s with mustsend := false }) ∧
      ((List.range n).foldl Screen.updateGroup { s with mustsend := false }).sent = s.sent ++ packets.reduceOption ∧
      ∀ j (hj : j < packets.length), (∀ p, packets[j] = some p → Readable s j p) ∧
        (packets[j] = none → s.shown j 8 = [] ∧ s.told j 8 = []) := by
    intro n
    induction n with
    | zero =>
      exact ⟨[], rfl, ⟨rfl, rfl, rfl, fun _ _ => ⟨rfl, rfl⟩⟩, (List.append_nil _).symm, fun j hj => absurd hj (Nat.not_lt_zero j)⟩
    | succ n ih =>
      obtain ⟨packets, rfl, hupd, hsent, hall⟩ := ih
      obtain ⟨hstep, packet, hsent', hread, hnone⟩ := hupd.step
      rw [List.range_succ, List.foldl_append, List.foldl_cons, List.foldl_nil]
      generalize (List.range packets.length).foldl Screen.updateGroup { s with mustsend := false } = s' at *
      refine ⟨packets ++ [packet], by simp, hstep, ?_, fun j hj => ?_⟩
      · rw [hsent', hsent, List.reduceOption_append, List.append_assoc]
        rfl
      · by_cases hlast : j < packets.length
        · rw [List.getElem_append_left hlast]
          exact hall j hlast
        -- the new group has appended at most one packet
        · obtain rfl : j = packets.length := by
            rw [List.length_append, List.length_singleton] at hj
            omega
          rw [List.getElem_concat_length rfl]
          exact ⟨hread, hnone⟩
  have hgroups : maxPlayer * maxTorp / 8 = 32 := by decide
  unfold Screen.supdateTorps
  rw [hgroups]
  obtain ⟨packets, hlen, -, hsent, hall⟩ := hrun 32
  generalize (List.range 32).foldl Screen.updateGroup { s with mustsend := false } = s' at hsent ⊢
  refine ⟨packets, hlen, hsent, fun j hj => ⟨fun p hp => ⟨(hall j hj).1 p hp, ?_⟩, (hall j hj).2, fun i hi => ?_⟩⟩
  -- the sizes: eight torps of nine bits each, and the information bytes
  · have hsize := ((hall j hj).1 p hp).size
    have hshown := length_shown s j
    have htold := length_told s j
    have hdata := vtdata_eq hshown
    have hcovers := vtsize_covers hshown
    obtain ⟨-, hround, hfour⟩ := roundUp_le (4 + vtdata (s.shown j 8).length + (s.told j 8).length)
    unfold Screen.declared size8Torp at hsize
    split at hsize
    · omega
    · split at hsize <;> omega
  -- a torp out of view is sent at 501; any other lies in the window
  · have hshows : s.shows (8 * j + i) := (List.mem_filter.1 hi).2
    obtain ⟨⟨hx₀, hx⟩, hy₀, hy⟩ := place_range hshows
    refine ⟨⟨by omega, by omega⟩, place_fst_eq hshows, place_snd_eq hshows, fun hc => ?_⟩
    unfold Screen.place
    rw [hc]
    rfl

end Netrek.Short
