/-
What `do_balance` selects and whom it moves. The search over the bits of a number finds a division that is optimal for the
shuffled array, so for the players in the game; but a player who has no team yet, in the lowest slot, keeps `sides` from
finding two.
-/
import NetrekServer.Balance.Teams

namespace Netrek.Balance

open Netrek.Lib
open Netrek.SlotMaint (Roster changeTeamQuietly changeTeamQuietly_eq)

variable {r : Roster} {h : Hall} {value : Player → Int} {random : Nat → Nat} {one two : Word} {list : List Item}

/-! ## Two sides -/

/-- The slots in the game that are on any of the four teams, or on all. -/
def playing (r : Roster) (l : List Slot) : List Slot := l.filter fun i => inGame (r.player i) && allTeam.has (r.player i).team

/-- Some player in the game is on a team that the first player on a team is not on. -/
def TwoSides (r : Roster) (l : List Slot) : Prop :=
  ∃ i is, playing r l = i :: is ∧ ∃ j ∈ is, (allTeam &&& ~~~(r.player i).team).has (r.player j).team = true

theorem ne_zero_of_has {w v : Word} (hv : w.has v = true) : v ≠ 0 := by
  rintro rfl
  simp [Word.has] at hv

theorem has_of_andNot {w u v : Word} (hv : (w &&& ~~~u).has v = true) : w.has v = true := by
  unfold Word.has at hv ⊢
  simp only [bne_iff_ne, ne_eq] at hv ⊢
  intro hzero
  apply hv
  rw [BitVec.and_assoc, BitVec.and_comm (~~~u), ← BitVec.and_assoc, hzero]
  exact BitVec.zero_and

theorem sidesFrom_second (hone : one ≠ 0) (unseen : Word) (l : List Slot) :
    (sidesFrom r one unseen l).2 ≠ 0 ↔ ∃ j ∈ l, inGame (r.player j) = true ∧ unseen.has (r.player j).team = true := by
  induction l with
  | nil => simp [sidesFrom]
  | cons i is ih =>
    unfold sidesFrom
    by_cases hi : (inGame (r.player i) && unseen.has (r.player i).team) = true
    · have hboth := Bool.and_eq_true_iff.mp hi
      simp only [if_pos hi, if_neg hone]
      exact iff_of_true (ne_zero_of_has hboth.2) ⟨i, List.mem_cons_self, hboth⟩
    · have hskip : ¬(inGame (r.player i) = true ∧ unseen.has (r.player i).team = true) := by simpa using hi
      simp only [if_neg hi, ih, List.mem_cons, exists_eq_or_imp, hskip, false_or]

/-- There are two sides exactly if there are players of two teams. -/
theorem sidesFrom_first (l : List Slot) : (sidesFrom r 0 allTeam l).2 ≠ 0 ↔ TwoSides r l := by
  induction l with
  | nil => simp [sidesFrom, TwoSides, playing]
  | cons i is ih =>
    unfold sidesFrom TwoSides playing
    by_cases hi : (inGame (r.player i) && allTeam.has (r.player i).team) = true
    · have hteam := ne_zero_of_has (Bool.and_eq_true_iff.mp hi).2
      simp only [if_pos hi, if_true, sidesFrom_second hteam, List.filter_cons, List.cons.injEq]
      constructor
      · rintro ⟨j, hj, hgame, hhas⟩
        refine ⟨i, _, ⟨rfl, rfl⟩, j, List.mem_filter.mpr ⟨hj, ?_⟩, hhas⟩
        rw [hgame, has_of_andNot hhas, Bool.and_true]
      · rintro ⟨_, _, ⟨rfl, rfl⟩, j, hj, hhas⟩
        obtain ⟨hmem, hboth⟩ := List.mem_filter.mp hj
        exact ⟨j, hmem, (Bool.and_eq_true_iff.mp hboth).1, hhas⟩
    · simp only [if_neg hi, List.filter_cons]
      exact ih

/-! ## The working array -/

theorem workingArray_perm (value : Player → Int) (random : Nat → Nat) (r : Roster) :
    (workingArray value random r).Perm ((participants r).map (item value r)) := by
  have hperm := shuffleSwaps_perm random ((participants r).map (item value r)).toArray
  rwa [List.toList_toArray] at hperm

theorem participants_nodup : (participants r).Nodup := (List.nodup_finRange maxPlayer).filter _

theorem workingArray_nodup : (workingArray value random r).Nodup := by
  rw [(workingArray_perm value random r).nodup_iff]
  refine (List.nodup_map_iff fun i j hij => ?_).mpr participants_nodup
  exact congrArg Item.pNo hij

theorem mem_workingArray {x : Item} (hx : x ∈ workingArray value random r) :
    x.pNo ∈ participants r ∧ item value r x.pNo = x := by
  obtain ⟨i, hi, rfl⟩ := List.mem_map.mp ((workingArray_perm value random r).mem_iff.mp hx)
  exact ⟨hi, rfl⟩

/-! ## The search -/

theorem combinations_eq {records : Nat} (hle : records ≤ 30) : combinations records = 2 ^ records := by
  have hall : ∀ n : Fin 31, combinations n = 2 ^ n.val := by decide +kernel
  exact hall ⟨records, by omega⟩

/-- The player of an entry is on the team already. -/
def home (one two : Word) (x : Item) (b : Bool) : Bool := x.pTeam == if b then one else two

/-- What is remembered of a combination, if it is not skipped. -/
def candidate (one two : Word) (list : List Item) (i : Nat) : Option Best :=
  let a := side i true list
  let b := side i false list
  if 1 < |(a.length : Int) - b.length| then none
  else some ⟨i, |(a.map Item.pValue).sum - (b.map Item.pValue).sum|, (a.map Item.pValue).sum, (b.map Item.pValue).sum,
    (a.countP (fun x => !home one two x true) + b.countP (fun x => !home one two x false) : Nat)⟩

/-- Smaller differences come first, then fewer moves. -/
def rank (b : Best) : Lex (Int × Int) := toLex (b.value, b.swaps)

theorem rank_lt {c best : Best} :
    rank c < rank best ↔ c.value < best.value ∨ c.value = best.value ∧ c.swaps < best.swaps := Prod.Lex.toLex_lt_toLex

theorem rank_le {c best : Best} :
    rank c ≤ rank best ↔ c.value < best.value ∨ c.value = best.value ∧ c.swaps ≤ best.swaps := Prod.Lex.toLex_le_toLex

theorem consider_eq (best : Best) (i : Nat) :
    consider one two list best i = keepBest rank best (candidate one two list i) := by
  unfold consider candidate
  generalize side i true list = a
  generalize side i false list = b
  dsimp only
  split_ifs with _ hbetter
  · rfl
  · exact (if_pos (rank_lt.mpr hbetter)).symm
  · exact (if_neg fun hlt => hbetter (rank_lt.mp hlt)).symm

theorem search_eq (hle : list.length ≤ 30) :
    search one two list = scanBest rank (candidate one two list) worst (List.range (2 ^ list.length)) := by
  unfold search scanBest
  rw [combinations_eq hle]
  congr 1
  funext best i
  exact consider_eq best i

/-- A candidate has the figures of the division by its number. -/
theorem candidate_eq {f : Item → Bool} {i : Nat} (hdiv : Divides i f list) {c : Best}
    (hc : candidate one two list i = some c) : c.combination = i ∧ sizeGap f list ≤ 1 ∧
      c.value = valueGap Item.pValue f list ∧ c.swaps = moves (home one two) f list := by
  unfold candidate at hc
  simp only [← hdiv.sizeGap_eq, ← hdiv.valueGap_eq, ← hdiv.moves_eq] at hc
  split_ifs at hc with hskip
  cases hc
  exact ⟨rfl, not_lt.mp hskip, rfl, rfl⟩

theorem exists_candidate (one two : Word) {f : Item → Bool} {i : Nat} (hdiv : Divides i f list) (heven : sizeGap f list ≤ 1) :
    ∃ c, candidate one two list i = some c := by
  unfold candidate
  simp only [← hdiv.sizeGap_eq, if_neg (not_lt.mpr heven)]
  exact ⟨_, rfl⟩

/-- The search ends with a number that divides the array in an optimal way. -/
theorem search_optimal (one two : Word) (hnodup : list.Nodup) (hle : list.length ≤ 30) (hvalue : ∀ x ∈ list, 0 ≤ x.pValue)
    (hsum : (list.map Item.pValue).sum < 2 ^ 30) : ∃ i : Nat, (search one two list).combination = i ∧
      ∀ f, Divides i f list → Optimal Item.pValue (home one two) list f ∧
        (search one two list).swaps = moves (home one two) f list := by
  obtain ⟨g, hg⟩ := exists_even hnodup
  obtain ⟨k, hk, hdiv⟩ := exists_divides g list
  obtain ⟨c, hc⟩ := exists_candidate one two hdiv hg
  have hbetter : rank c < rank worst := by
    refine rank_lt.mpr (.inl ?_)
    rw [(candidate_eq hdiv hc).2.2.1]
    exact (valueGap_le_sum hvalue g).trans_lt hsum
  rw [search_eq hle]
  obtain ⟨i, -, hi⟩ := scanBest_candidate rank (List.mem_range.mpr hk) hc hbetter
  refine ⟨i, (candidate_eq (divides_idxOf hnodup i) hi).1, fun f hf => ?_⟩
  obtain ⟨-, heven, hval, hswaps⟩ := candidate_eq hf hi
  refine ⟨Optimal.of_divides heven fun j hj g' hdiv' heven' => ?_, hswaps⟩
  obtain ⟨c', hc'⟩ := exists_candidate one two hdiv' heven'
  have hleast := rank_le.mp (scanBest_least rank (List.mem_range.mpr hj) hc' worst)
  obtain ⟨-, -, hval', hswaps'⟩ := candidate_eq hdiv' hc'
  rw [hval, hswaps, hval', hswaps'] at hleast
  rw [Prod.Lex.toLex_le_toLex]
  exact hleast.imp_right fun ⟨heq, hmoves⟩ => ⟨heq, by exact_mod_cast hmoves⟩

/-! ## The moves -/

theorem changeTeamQuietly_team (r : Roster) (k i : Slot) (ours theirs : Word) :
    ((changeTeamQuietly r k ours theirs).player i).team = if i = k then ours else (r.player i).team := by
  rw [changeTeamQuietly_eq]
  dsimp only
  split_ifs with _ hi <;> simp [Player.joinTeam, *]

theorem move_team (h : Hall) (k i : Slot) (ours theirs : Word) :
    ((move h k ours theirs).player i).team = if i = k then ours else (h.player i).team := by
  show ((changeTeam h.roster k ours theirs).player i).team = _
  unfold changeTeam
  rw [SlotMaint.Roster.player_modifyPlayer]
  by_cases hi : i = k
  · simp [hi, changeTeamQuietly_team]
  · simp [hi, changeTeamQuietly_team, Hall.player]

/-- The team of one side. -/
def teamOf (one two : Word) (b : Bool) : Word := if b then one else two

/-- Each slot of a list goes to the side that it is assigned to. -/
def swapping (one two : Word) (f : Slot → Bool) : Sweep Hall Slot Word Unit where
  step h k := move h k (teamOf one two (f k)) (teamOf one two (!f k))
  cell h k := (h.player k).team
  view _ := ()
  turn _ k _ := teamOf one two (f k)
  view_step _ _ := rfl
  cell_self h k := by rw [move_team, if_pos rfl]
  cell_other h k i hi := by rw [move_team, if_neg hi]

/-- The side of a slot in a selection: the bit of its entry. -/
def assigned (list : List Item) (best : Best) (k : Slot) : Bool := chosen best ((list.map Item.pNo).idxOf k)

theorem chosen_eq_assigned (hlist : (list.map Item.pNo).Nodup) (best : Best) {x : Item × Nat} (hx : x ∈ list.zipIdx) :
    chosen best x.2 = assigned list best x.1.pNo := by
  obtain ⟨hlt, heq⟩ := List.mem_zipIdx' hx
  have hidx : (list.map Item.pNo).idxOf x.1.pNo = x.2 := by
    have hbound : x.2 < (list.map Item.pNo).length := by rwa [List.length_map]
    have hget : x.1.pNo = (list.map Item.pNo)[x.2] := by rw [List.getElem_map, heq]
    rw [hget, hlist.idxOf_getElem]
  rw [assigned, hidx]

theorem moveAll_eq (hlist : (list.map Item.pNo).Nodup) (best : Best) (h : Hall) :
    moveAll one two list best h = (list.map Item.pNo).foldl (swapping one two (assigned list best)).step h := by
  have hmap : list.map Item.pNo = list.zipIdx.map fun x => x.1.pNo := by
    conv_lhs => rw [← List.zipIdx_map_fst 0 list, List.map_map]
    rfl
  rw [hmap, List.foldl_map]
  refine List.foldl_ext _ _ _ fun h x hx => ?_
  show _ = move h x.1.pNo (teamOf one two (assigned list best x.1.pNo)) (teamOf one two (!assigned list best x.1.pNo))
  rw [← chosen_eq_assigned hlist best hx]
  cases chosen best x.2 <;> rfl

theorem announceSide_roster (list : List Item) (best : Best) (b : Bool) (ours : Word) (h : Hall) :
    (announceSide list best b ours h).roster = h.roster := by
  unfold announceSide
  generalize list.zipIdx = l
  induction l generalizing h with
  | nil => rfl
  | cons x l ih =>
    rw [List.foldl_cons, ih]
    split <;> rfl

theorem announce_roster (one two : Word) (list : List Item) (best : Best) (h : Hall) :
    (announce one two list best h).roster = h.roster := by
  show (announceSide list best false two _).roster = _
  rw [announceSide_roster, Hall.roster_tell, announceSide_roster]

/-! ## What is selected, and who is moved -/

/-- `do_balance` selects an optimal division of the players in the game; if it moves nobody to another side, nothing
    changes, and else every one of them ends on his side. Nobody else changes teams. -/
structure Carried (value : Player → Int) (random : Nat → Nat) (h : Hall) (list : List Item) (best : Best) : Prop where
  selects : (doBalance value random h).2 = some (list, best)
  optimal : Optimal (fun i => value (h.player i))
    (fun i b => (h.player i).team == teamOf (sides h.roster).1 (sides h.roster).2 b) (participants h.roster)
    (assigned list best)
  still : (∀ i ∈ participants h.roster,
      (h.player i).team = teamOf (sides h.roster).1 (sides h.roster).2 (assigned list best i)) →
    (doBalance value random h).1.roster = h.roster
  moved : ∀ i ∈ participants h.roster,
    ((doBalance value random h).1.player i).team = teamOf (sides h.roster).1 (sides h.roster).2 (assigned list best i)
  others : ∀ i ∉ participants h.roster, ((doBalance value random h).1.player i).team = (h.player i).team

/-- The balance is optimal and is carried out. -/
def Balances (value : Player → Int) (random : Nat → Nat) (h : Hall) : Prop := ∃ list best, Carried value random h list best

theorem workingArray_pNo : ((workingArray value random r).map Item.pNo).Perm (participants r) := by
  have hperm := (workingArray_perm value random r).map Item.pNo
  rw [List.map_map] at hperm
  exact hperm.trans (.of_eq (List.map_id _))

theorem workingArray_value : (workingArray value random r).map Item.pValue |>.Perm
    ((participants r).map fun i => value (r.player i)) := by
  have hperm := (workingArray_perm value random r).map Item.pValue
  rwa [List.map_map] at hperm

/-- The two sides of the roster, if there are two. -/
theorem sides_second : (sides r).2 ≠ 0 ↔ TwoSides r (List.finRange maxPlayer) := sidesFrom_first _

theorem doBalance_one (hsides : (sides h.roster).2 = 0) : (doBalance value random h).2 = none := by
  unfold doBalance
  simp only [hsides, if_true]

/-- The combination that is selected. -/
def selectedBest (value : Player → Int) (random : Nat → Nat) (h : Hall) : Best :=
  search (sides h.roster).1 (sides h.roster).2 (workingArray value random h.roster)

theorem workingArray_pNo_nodup : ((workingArray value random r).map Item.pNo).Nodup :=
  workingArray_pNo.nodup_iff.mpr participants_nodup

theorem doBalance_two (hsides : (sides h.roster).2 ≠ 0) :
    (doBalance value random h).2 = some (workingArray value random h.roster, selectedBest value random h) := by
  unfold doBalance
  simp only [if_neg hsides]
  split_ifs <;> rfl

theorem doBalance_roster (value : Player → Int) (random : Nat → Nat) (hsides : (sides h.roster).2 ≠ 0) :
    (doBalance value random h).1.roster =
      if (selectedBest value random h).swaps ≠ 0 then
        (moveAll (sides h.roster).1 (sides h.roster).2 (workingArray value random h.roster) (selectedBest value random h) h).roster
      else h.roster := by
  unfold doBalance
  simp only [if_neg hsides]
  rw [apply_ite Prod.fst, apply_ite Hall.roster, announce_roster]
  rfl

/-- The side that a slot is on already. -/
def atHome (h : Hall) (i : Slot) (b : Bool) : Bool :=
  (h.player i).team == teamOf (sides h.roster).1 (sides h.roster).2 b

/-- The selection is optimal for the players in the game, and knows how many it moves. -/
theorem selection_optimal (random : Nat → Nat) (hcount : (participants h.roster).length ≤ 30)
    (hvalue : ∀ i ∈ participants h.roster, 0 ≤ value (h.player i))
    (hsum : ((participants h.roster).map fun i => value (h.player i)).sum < 2 ^ 30) :
    Optimal (fun i => value (h.player i)) (atHome h) (participants h.roster)
        (assigned (workingArray value random h.roster) (selectedBest value random h)) ∧
      (selectedBest value random h).swaps =
        moves (atHome h) (assigned (workingArray value random h.roster) (selectedBest value random h)) (participants h.roster) := by
  have hle : (workingArray value random h.roster).length ≤ 30 := by
    rw [← List.length_map Item.pNo, workingArray_pNo.length_eq]
    exact hcount
  have hvalues : ∀ x ∈ workingArray value random h.roster, 0 ≤ x.pValue := by
    intro x hx
    rw [← (mem_workingArray hx).2]
    exact hvalue _ (mem_workingArray hx).1
  have hsums : ((workingArray value random h.roster).map Item.pValue).sum < 2 ^ 30 := by
    rw [workingArray_value.sum_eq]
    exact hsum
  obtain ⟨i, hcomb, hopt⟩ := search_optimal (sides h.roster).1 (sides h.roster).2
    workingArray_nodup hle hvalues hsums
  have hdiv : Divides i (fun x => assigned (workingArray value random h.roster) (selectedBest value random h) x.pNo)
      (workingArray value random h.roster) := by
    intro x hx
    show _ = assigned _ (selectedBest value random h) x.1.pNo
    rw [← chosen_eq_assigned workingArray_pNo_nodup _ hx, chosen, selectedBest, hcomb]
    rfl
  obtain ⟨hlist, hswaps⟩ := hopt _ hdiv
  refine ⟨Optimal.of_map (fun x : Slot => (rfl : (item value h.roster x).pNo = x)) (hlist.perm (workingArray_perm value random h.roster)), ?_⟩
  rw [selectedBest, hswaps, moves_perm (workingArray_perm value random h.roster), moves_map]
  rfl

/-- The moves take every player in the game to his side, and nobody else anywhere. -/
theorem moveAll_team (best : Best) (i : Slot) :
    ((moveAll one two (workingArray value random h.roster) best h).player i).team =
      if i ∈ participants h.roster then teamOf one two (assigned (workingArray value random h.roster) best i)
      else (h.player i).team := by
  rw [moveAll_eq workingArray_pNo_nodup]
  split_ifs with hi
  · exact (swapping one two _).cell_of_mem workingArray_pNo_nodup (workingArray_pNo.mem_iff.mpr hi) h
  · exact (swapping one two _).cell_of_notMem (fun hmem => hi (workingArray_pNo.mem_iff.mp hmem)) h

theorem moves_eq_zero {f : Slot → Bool} {l : List Slot} :
    moves (atHome h) f l = 0 ↔ ∀ i ∈ l, (h.player i).team = teamOf (sides h.roster).1 (sides h.roster).2 (f i) := by
  unfold moves atHome
  simp [List.countP_eq_zero]

/-- For up to 30 players in the game, and values that are not negative and do not sum up to 2^30, the balance is optimal and
    carried out if two sides are found, and only then. -/
theorem doBalance_balances (value : Player → Int) (random : Nat → Nat) (hcount : (participants h.roster).length ≤ 30)
    (hvalue : ∀ i ∈ participants h.roster, 0 ≤ value (h.player i))
    (hsum : ((participants h.roster).map fun i => value (h.player i)).sum < 2 ^ 30) :
    Balances value random h ↔ TwoSides h.roster (List.finRange maxPlayer) := by
  rw [← sides_second]
  constructor
  · rintro ⟨list, best, hcarried⟩ hsides
    have hnone := hcarried.selects
    rw [doBalance_one hsides] at hnone
    cases hnone
  intro hsides
  obtain ⟨hopt, hswaps⟩ := selection_optimal random hcount hvalue hsum
  have hroster := doBalance_roster value random hsides
  refine ⟨_, _, doBalance_two hsides, hopt, fun hstill => ?_, fun i hi => ?_, fun i hi => ?_⟩
  · rw [hroster, if_neg]
    rw [hswaps, moves_eq_zero.mpr hstill]
    simp
  · show ((doBalance value random h).1.roster.player i).team = _
    rw [hroster]
    split_ifs with hzero
    · exact (moveAll_team _ i).trans (if_pos hi)
    · rw [not_not, hswaps, Int.natCast_eq_zero] at hzero
      exact moves_eq_zero.mp hzero i hi
  · show ((doBalance value random h).1.roster.player i).team = _
    rw [hroster]
    split_ifs with hzero
    · exact (moveAll_team _ i).trans (if_neg hi)
    · rfl

/-- Two players on different teams suffice, if nobody in the game is without one. -/
theorem TwoSides.of_teams (hteam : ∀ i ∈ participants r, ∃ t : Fin 4, (r.player i).team = BitVec.twoPow 32 t.val)
    (hdiff : ∃ i ∈ participants r, ∃ j ∈ participants r, (r.player i).team ≠ (r.player j).team) :
    TwoSides r (List.finRange maxPlayer) := by
  have hany : ∀ t : Fin 4, allTeam.has (BitVec.twoPow 32 t.val) = true := by decide
  have hother : ∀ t u : Fin 4, t ≠ u → (allTeam &&& ~~~BitVec.twoPow 32 t.val).has (BitVec.twoPow 32 u.val) = true := by
    decide
  have hplaying : playing r (List.finRange maxPlayer) = participants r := by
    refine List.filter_congr fun i hi => ?_
    cases hgame : inGame (r.player i) with
    | false => rfl
    | true =>
      obtain ⟨t, ht⟩ := hteam i (List.mem_filter.mpr ⟨hi, hgame⟩)
      rw [ht, hany, Bool.and_true]
  unfold TwoSides
  rw [hplaying]
  obtain ⟨i, hi, j, hj, hne⟩ := hdiff
  obtain ⟨k, ks, hks⟩ := List.exists_cons_of_ne_nil (List.ne_nil_of_mem hi)
  refine ⟨k, ks, hks, ?_⟩
  have hfar : ∃ x ∈ participants r, (r.player x).team ≠ (r.player k).team := by
    by_cases hik : (r.player i).team = (r.player k).team
    · exact ⟨j, hj, fun hjk => hne (hik.trans hjk.symm)⟩
    · exact ⟨i, hi, hik⟩
  obtain ⟨x, hx, hxk⟩ := hfar
  obtain ⟨t, ht⟩ := hteam k (hks ▸ List.mem_cons_self)
  obtain ⟨u, hu⟩ := hteam x hx
  rw [hks, List.mem_cons] at hx
  refine ⟨x, hx.resolve_left fun hxeq => hxk (hxeq ▸ rfl), ?_⟩
  rw [ht, hu]
  rw [ht, hu] at hxk
  exact hother t u fun htu => hxk (htu ▸ rfl)

/-! ## A hall with three players -/

/-- Players in the first three slots. -/
def hall (team : Slot → Word) : Hall :=
  let r : Roster := default
  { said := []
    roster := { r with server := { r.server with mem := { r.server.mem with
      players := fun i => { (default : Player) with
        status := if i.val < 3 then .poutfit else .pfree
        team := team i } } } } }

/-- Two players of the first team and one of the second. -/
def threePlayers : Hall := hall fun i => if i.val < 2 then fed else rom

/-- What a player is worth. -/
def worth (p : Player) : Int := if p.team = fed then 40 else 25

theorem doBalance_balances_three : Balances worth (fun n => n / 2) threePlayers :=
  (doBalance_balances worth (fun n => n / 2) (by decide +kernel) (by decide +kernel) (by decide +kernel)).2
    (TwoSides.of_teams (by decide +kernel) (by decide +kernel))

/-- A player who has no team yet, in the lowest slot. -/
def newcomerFirst : Hall := hall fun i => if i.val = 0 then allTeam else if i.val = 1 then fed else rom

/-- The players of two teams are told that there is only one. -/
theorem only_one_team : ((participants newcomerFirst.roster).length ≤ 30 ∧
    (newcomerFirst.player 1).team = fed ∧ (newcomerFirst.player 2).team = rom) ∧
      ¬Balances (fun _ => 0) id newcomerFirst := by
  refine ⟨by decide +kernel, ?_⟩
  rintro ⟨list, best, hcarried⟩
  have hnone := hcarried.selects
  rw [doBalance_one (by decide +kernel)] at hnone
  cases hnone

end Netrek.Balance
