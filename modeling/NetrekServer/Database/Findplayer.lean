/-
`findplayer` of `ntserv/db.c`: a player's record is looked for where the index says, and then from the start of the
player file. The index is a hint, and what is read there is checked; but a read that comes short leaves in the
caller's record what was there before, and that is checked as if it had been read.
-/
import NetrekServer.Defs
import NetrekServer.Lib.Records

namespace Netrek.Database

open Netrek.Lib Records

/-! ## The player file -/

/-- `NAME_LEN`. -/
def nameLen : Nat := 16

/-- `sizeof(struct statentry)`, which begins with the name. -/
structure Layout where
  size : Nat
  name : nameLen ≤ size

/-- The player file, unless it cannot be opened, and the player index. -/
structure Db where
  file : Option (List UInt8)
  index : List UInt8 → Option Nat

/-- A name that fits its field. -/
structure NameOk (name : List UInt8) : Prop where
  nul : 0 ∉ name
  fits : name.length < nameLen

/-- `strcmp(namePick, player->name) == 0`. -/
def carries (rec name : List UInt8) : Bool := (name ++ [0]).isPrefixOf rec

/-- `strcpy(player->name, namePick)`. -/
def strcpyName (rec name : List UInt8) : List UInt8 := overlay rec (name ++ [0])

/-! ## Looking for a player -/

variable (L : Layout)

theorem Layout.size_pos : 0 < L.size := Nat.lt_of_lt_of_le (by decide) L.name

/-- The search from `position` on, with `rest` of the file to read: the record found and its position, if any, and what
the caller's record holds. -/
def sequential (namePick : List UInt8) (rest : List UInt8) (position : Nat) (player : List UInt8) :
    Option Nat × List UInt8 :=
  let got := rest.take L.size
  let player := overlay player got
  if got.length = L.size then
    if carries player namePick then (some position, player)
    else sequential namePick (rest.drop L.size) (position + 1) player
  else (none, player)
termination_by rest.length
decreasing_by
  have hpos := L.size_pos
  rename_i h _
  have hlen : (rest.take L.size).length = L.size := h
  rw [List.length_take] at hlen
  rw [List.length_drop]
  omega

/-- The record as read where the index says, if that is the player's. -/
def hinted (file namePick : List UInt8) (hint : Nat) (player : List UInt8) : Bool × List UInt8 :=
  let player := overlay player (record L.size file hint)
  (carries player namePick, player)

/-- `findplayer`: the index, the position, and the caller's record. Positions have no bound here; the code counts records
in an `int`. -/
def findplayer (db : Db) (namePick player : List UInt8) (exhaustive : Bool) : Db × Int × List UInt8 :=
  match db.file with
  | none => (db, -1, strcpyName player namePick)
  | some file =>
    let hint := (db.index namePick).map fun position => (position, hinted L file namePick position player)
    match hint with
    | some (position, true, player) => (db, position, player)
    | _ =>
      let player := match hint with
        | some (_, _, player) => player
        | none => player
      match if exhaustive then sequential L namePick file 0 player else (none, player) with
      | (some position, player) =>
        ({ db with index := Function.update db.index namePick (some position) }, position, player)
      | (none, player) => (db, -1, strcpyName player namePick)

/-! ## The sequential search -/

variable {L} {namePick player player' rest file : List UInt8} {position i : Nat}

theorem sequential_short (h : rest.length < L.size) :
    sequential L namePick rest position player = (none, overlay player rest) := by
  have htake : rest.take L.size = rest := List.take_of_length_le (by omega)
  unfold sequential
  rw [htake]
  exact if_neg (by omega)

/-- A whole record is read in place of what the block held. -/
theorem sequential_whole (hp : player.length = L.size) (h : L.size ≤ rest.length) :
    sequential L namePick rest position player =
      if carries (rest.take L.size) namePick then (some position, rest.take L.size)
      else sequential L namePick (rest.drop L.size) (position + 1) (rest.take L.size) := by
  have hlen : (rest.take L.size).length = L.size := by
    rw [List.length_take]
    omega
  rw [sequential]
  simp only [overlay_eq (hp.trans hlen.symm), if_pos hlen]

/-- What the block held before the first record is read makes no difference. -/
theorem sequential_block (hp : player.length = L.size) (hp' : player'.length = L.size) (h : L.size ≤ rest.length) :
    sequential L namePick rest position player = sequential L namePick rest position player' := by
  rw [sequential_whole hp h, sequential_whole hp' h]

/-- The first record that carries the name is found. -/
theorem sequential_found (hi : i < count L.size rest) (hc : carries (record L.size rest i) namePick = true)
    (hfirst : ∀ j < i, carries (record L.size rest j) namePick = false) (hp : player.length = L.size) :
    sequential L namePick rest position player = (some (position + i), record L.size rest i) := by
  induction i generalizing rest position player with
  | zero =>
    have hsize := (lt_count L.size_pos).1 hi
    rw [record_zero] at hc ⊢
    rw [sequential_whole hp (by omega), if_pos hc]
    rfl
  | succ i ih =>
    have hsize := (lt_count L.size_pos).1 hi
    rw [Nat.add_one_mul] at hsize
    have hnot := hfirst 0 (Nat.succ_pos i)
    rw [record_zero] at hnot
    have hcount := count_drop L.size_pos (show L.size ≤ rest.length by omega)
    rw [sequential_whole hp (by omega), hnot, if_neg (by decide), ← record_drop, Nat.add_comm i, ← Nat.add_assoc]
    refine ih (by omega) (record_drop i ▸ hc) (fun j hj => ?_) ?_
    · rw [record_drop]
      exact hfirst (j + 1) (by omega)
    · rw [List.length_take]
      omega

/-- What is found is a record of the file that carries the name. -/
theorem sequential_some {q : Nat} {found : List UInt8} (hp : player.length = L.size)
    (h : sequential L namePick rest position player = (some q, found)) :
    ∃ i < count L.size rest, q = position + i ∧ carries (record L.size rest i) namePick = true := by
  fun_induction sequential L namePick rest position player with
  | case1 rest position player got player' hlen hc =>
    obtain rfl := Option.some.inj (Prod.mk.inj h).1
    have hgot : player' = got := overlay_eq (hp.trans hlen.symm)
    refine ⟨0, (lt_count L.size_pos).2 ?_, rfl, ?_⟩
    · have hlen' : (rest.take L.size).length = L.size := hlen
      rw [List.length_take] at hlen'
      omega
    · rw [record_zero]
      rw [hgot] at hc
      exact hc
  | case2 rest position player got player' hlen hc ih =>
    have hlen' : (rest.take L.size).length = L.size := hlen
    rw [List.length_take] at hlen'
    have hgot : player' = got := overlay_eq (hp.trans hlen.symm)
    obtain ⟨i, hi, rfl, hcarries⟩ := ih (hgot ▸ hlen) h
    have hcount := count_drop L.size_pos (show L.size ≤ rest.length by omega)
    exact ⟨i + 1, by omega, by omega, record_drop i ▸ hcarries⟩
  | case3 => cases (Prod.mk.inj h).1

/-! ## The index -/

/-- What a search makes of the position and of the caller's record. -/
def answer (namePick : List UInt8) : Option Nat × List UInt8 → Int × List UInt8
  | (some position, player) => (position, player)
  | (none, player) => (-1, strcpyName player namePick)

theorem findplayer_unindexed {db : Db} (hf : db.file = some file) (hi : db.index namePick = none) :
    (findplayer L db namePick player true).2 = answer namePick (sequential L namePick file 0 player) := by
  unfold findplayer
  rw [hf, hi]
  simp only [Option.map_none, if_true]
  split
  · rename_i h
    rw [h]
    rfl
  · rename_i h
    rw [h]
    rfl

/-- With an entry in the index, the hint decides if the buffer then carries the name. -/
theorem findplayer_indexed (L : Layout) (player : List UInt8) {db : Db} (hf : db.file = some file) {hint : Nat}
    (hi : db.index namePick = some hint) :
    (findplayer L db namePick player true).2 =
      if carries (overlay player (record L.size file hint)) namePick then
        ((hint : Int), overlay player (record L.size file hint))
      else answer namePick (sequential L namePick file 0 (overlay player (record L.size file hint))) := by
  unfold findplayer hinted
  rw [hf, hi]
  cases hc : carries (overlay player (record L.size file hint)) namePick with
  | true =>
    simp only [Option.map_some, hc]
    rfl
  | false =>
    simp only [Option.map_some, hc, if_true]
    split
    · rename_i h
      rw [h]
      rfl
    · rename_i h
      rw [h]
      rfl

/-- The name as it stands in a record. -/
def cName (rec : List UInt8) : List UInt8 := rec.takeWhile (· ≠ 0)

theorem cName_of_carries {rec : List UInt8} (hn : NameOk namePick) (h : carries rec namePick = true) : cName rec = namePick := by
  obtain ⟨tail, rfl⟩ := List.isPrefixOf_iff_prefix.1 h
  unfold cName
  rw [List.append_assoc, List.takeWhile_append_of_pos fun c hc => by simpa using fun h0 : c = 0 => hn.nul (h0 ▸ hc)]
  simp

/-- No two records of the file are of one name. -/
def Distinct (L : Layout) (file : List UInt8) : Prop :=
  ∀ i < count L.size file, ∀ j < count L.size file,
    cName (record L.size file i) = cName (record L.size file j) → i = j

/-- With the index the same is found as without, and a position that is returned is that of a record of the name. -/
structure LikeScan (L : Layout) (db : Db) (namePick player : List UInt8) : Prop where
  same : (findplayer L db namePick player true).2 =
    (findplayer L { db with index := fun _ => none } namePick player true).2
  carries : 0 ≤ (findplayer L db namePick player true).2.1 → ∃ file, db.file = some file ∧
    (findplayer L db namePick player true).2.1.toNat < count L.size file ∧
      carries (record L.size file (findplayer L db namePick player true).2.1.toNat) namePick = true

/-- A hint past the whole records, where what is read, over what the caller's record held, looks like the player's. -/
def Misleads (L : Layout) (db : Db) (namePick player : List UInt8) : Prop :=
  ∃ file hint, db.file = some file ∧ db.index namePick = some hint ∧ count L.size file ≤ hint ∧
    carries (overlay player (file.drop (hint * L.size))) namePick = true

/-- Where there is no whole record, all there is is read. -/
theorem record_of_le {hint : Nat} (h : count L.size file ≤ hint) : record L.size file hint = file.drop (hint * L.size) :=
  List.take_of_length_le (Nat.le_of_lt (length_drop_lt L.size_pos h))

theorem length_hinted (hp : player.length = L.size) (hint : Nat) :
    (overlay player (record L.size file hint)).length = L.size := by
  rw [length_overlay, hp]
  rw [hp]
  exact List.length_take_le _ _

/-- Reading where the index says makes no difference to the search from the start. -/
theorem sequential_hinted (hp : player.length = L.size) (hint : Nat) :
    sequential L namePick file 0 (overlay player (record L.size file hint)) = sequential L namePick file 0 player := by
  by_cases hlen : L.size ≤ file.length
  · exact sequential_block (length_hinted hp hint) hp hlen
  · have hcount : count L.size file = 0 := Nat.div_eq_of_lt (by omega)
    rw [sequential_short (by omega), sequential_short (by omega), record_of_le (by omega)]
    cases hint with
    | zero => rw [Nat.zero_mul, List.drop_zero, overlay_overlay]
    | succ hint =>
      have hdrop : file.drop ((hint + 1) * L.size) = [] := by
        rw [List.drop_eq_nil_iff, Nat.add_one_mul]
        omega
      rw [hdrop, overlay_nil]

/-- A position that the search returns is that of a record of the name. -/
theorem answer_carries (hp : player.length = L.size)
    (h : 0 ≤ (answer namePick (sequential L namePick file 0 player)).1) :
    (answer namePick (sequential L namePick file 0 player)).1.toNat < count L.size file ∧
      carries (record L.size file (answer namePick (sequential L namePick file 0 player)).1.toNat) namePick = true := by
  cases hs : sequential L namePick file 0 player with
  | mk q found =>
    cases q with
    | none =>
      rw [hs] at h
      exact absurd h (by show ¬ (0 : Int) ≤ -1; omega)
    | some q =>
      obtain ⟨i, hi, rfl, hc⟩ := sequential_some hp hs
      simp only [answer, Int.toNat_natCast, Nat.zero_add]
      exact ⟨hi, hc⟩

/-- What the search from the start finds is found with and without the index. -/
theorem likeScan_of_answer {db : Db} (hf : db.file = some file) (hp : player.length = L.size)
    (h : (findplayer L db namePick player true).2 = answer namePick (sequential L namePick file 0 player)) :
    LikeScan L db namePick player := by
  constructor
  · rw [h, @findplayer_unindexed L namePick player file { db with index := fun _ => none } hf rfl]
  · rw [h]
    exact fun hpos => ⟨file, hf, answer_carries hp hpos⟩

/-- A hint at a record of the name is where the search comes to. -/
theorem sequential_hint {hint : Nat} (hn : NameOk namePick) (hp : player.length = L.size) (hd : Distinct L file)
    (hlt : hint < count L.size file) (hc : carries (record L.size file hint) namePick = true) :
    answer namePick (sequential L namePick file 0 player) =
      ((hint : Int), record L.size file hint) := by
  rw [sequential_found hlt hc ?_ hp, Nat.zero_add]
  · rfl
  · intro j hj
    by_contra hcj
    rw [Bool.not_eq_false] at hcj
    have := hd j (by omega) hint hlt ((cName_of_carries hn hcj).trans (cName_of_carries hn hc).symm)
    omega

/-- The index makes no difference exactly if it does not point past the whole records to what looks like the player's. -/
theorem likeScan_iff {db : Db} (hn : NameOk namePick) (hp : player.length = L.size)
    (hd : ∀ file, db.file = some file → Distinct L file) :
    LikeScan L db namePick player ↔ ¬ Misleads L db namePick player := by
  cases hf : db.file with
  | none =>
    refine iff_of_true ⟨?_, ?_⟩ ?_
    · unfold findplayer
      rw [hf]
    · unfold findplayer
      rw [hf]
      exact fun h => absurd h (by show ¬ (0 : Int) ≤ -1; omega)
    · rintro ⟨file, hint, hfile, -⟩
      exact absurd (hf.symm.trans hfile) (by simp)
  | some file =>
    cases hi : db.index namePick with
    | none =>
      refine iff_of_true (likeScan_of_answer hf hp (findplayer_unindexed hf hi)) ?_
      rintro ⟨file', hint, -, hhint, -⟩
      exact absurd (hi.symm.trans hhint) (by simp)
    | some hint =>
      have hfind := findplayer_indexed L player hf hi
      cases hc : carries (overlay player (record L.size file hint)) namePick with
      | false =>
        rw [hc, if_neg (by decide), sequential_hinted hp] at hfind
        refine iff_of_true (likeScan_of_answer hf hp hfind) ?_
        rintro ⟨file', hint', hfile, hhint, hle, hmis⟩
        obtain rfl := Option.some.inj (hf.symm.trans hfile)
        obtain rfl := Option.some.inj (hi.symm.trans hhint)
        rw [← record_of_le hle, hc] at hmis
        cases hmis
      | true =>
        rw [hc, if_pos rfl] at hfind
        by_cases hlt : hint < count L.size file
        · have hwhole := overlay_eq (hp.trans (length_record L.size_pos hlt).symm)
          rw [hwhole] at hc hfind
          refine iff_of_true (likeScan_of_answer hf hp ?_) ?_
          · rw [hfind, sequential_hint hn hp (hd file hf) hlt hc]
          · rintro ⟨file', hint', hfile, hhint, hle, -⟩
            obtain rfl := Option.some.inj (hf.symm.trans hfile)
            obtain rfl := Option.some.inj (hi.symm.trans hhint)
            omega
        -- the position that is returned is that of no record
        · refine iff_of_false ?_ (not_not_intro ⟨file, hint, hf, hi, by omega, ?_⟩)
          · intro h
            obtain ⟨file', hfile, hlt', -⟩ := h.carries (by rw [hfind]; exact Int.natCast_nonneg hint)
            obtain rfl := Option.some.inj (hf.symm.trans hfile)
            rw [hfind] at hlt'
            exact hlt hlt'
          · rw [← record_of_le (by omega)]
            exact hc

/-- Records of a name and a password. -/
def small : Layout := ⟨32, by decide⟩

/-- A record that carries the name "ab". -/
def abRecord : List UInt8 := [97, 98] ++ List.replicate 30 0

/-- A file of one record, which the index knows. -/
def indexed : Db := ⟨some abRecord, fun name => if name = [97, 98] then some 0 else none⟩

theorem distinct_abRecord : Distinct small abRecord := by
  intro i hi j hj _
  have hcount : count small.size abRecord = 1 := by decide
  omega

theorem likeScan_indexed : LikeScan small indexed [97, 98] (List.replicate 32 0) := by
  refine (likeScan_iff ⟨by decide, by decide⟩ (by decide) ?_).2 ?_
  · rintro file hf
    obtain rfl := Option.some.inj hf
    exact distinct_abRecord
  · rintro ⟨file, hint, hf, hi, hle, -⟩
    obtain rfl := Option.some.inj hf
    obtain rfl := Option.some.inj hi
    exact absurd hle (by decide)

/-- The player file was emptied, and the caller's record still holds the player. -/
theorem stale_hint :
    ¬ ∀ (L : Layout) (db : Db) (namePick player : List UInt8), NameOk namePick → player.length = L.size →
      (∀ file, db.file = some file → Distinct L file) → LikeScan L db namePick player := by
  intro h
  have hd : ∀ file, some ([] : List UInt8) = some file → Distinct small file := by
    rintro file hf
    obtain rfl := Option.some.inj hf
    exact fun i hi => absurd hi (Nat.not_lt_zero i)
  obtain ⟨file, hf, hlt, -⟩ := (h small { indexed with file := some [] } [97, 98] abRecord ⟨by decide, by decide⟩
    (by decide) hd).carries (by decide +kernel)
  obtain rfl := Option.some.inj hf
  exact absurd hlt (by decide)

end Netrek.Database
