/-
Trades of players between the two teams: `do_trade` of `robots/inlcomm.c`. A request is kept as slot
numbers until the captain of the other team names the same slots, so it is about whoever sits there
then, and a request for one slot keeps the second slot of an earlier one.
-/
import NetrekServer.Inl.Slots
import NetrekServer.Lib.Run

namespace Netrek.Inl

open Netrek.Lib

/-! ## Data -/

/-- The fields of `Inl_stats` about the pending request. -/
structure Trade where
  /-- `swap[0]` and `swap[1]`. -/
  swap : Option Slot × Option Slot
  swapnum : Nat
  swapteam : Option Side
  deriving DecidableEq, Inhabited

/-- `trade_reset`. -/
def Trade.reset : Trade := ⟨(none, none), 0, none⟩

/-- A request of a side, and who sat in each slot when it was made. -/
structure Request where
  side : Side
  names : List Slot
  occupant : Slot → Nat

/-- What `do_trade` tells all players. -/
inductive Announcement
  | asked (r : Request)
  /-- The side approves, and the players are moved. -/
  | moved (r : Request)
  | declined (side : Side)
  /-- A pending slot is no longer active. -/
  | lapsed (slot : Slot) (status : PStatus)

/-- The robot, the pending request, who sits in each slot, and what was told, newest first. -/
structure Market where
  bureau : Bureau
  trade : Trade
  occupant : Slot → Nat
  log : List Announcement

/-! ## The command -/

/-- What the text of a TRADE command says. -/
inductive TradeText
  | status
  | reset
  | slots (names : List Slot)
  | invalid
  deriving DecidableEq

/-- The text, read as `do_trade` reads it: what follows the word TRADE and a blank. -/
def tradeText (comm : List Char) : TradeText :=
  if comm.map Char.toLower = "trade".toList then .status
  else
    let comm := comm.drop 6
    if comm.map Char.toLower = "reset".toList then .reset
    else
      match comm with
      | [a] => (slotNum a).elim .invalid fun i => .slots [i]
      | [a, ' ', b] => (slotNum a).elim .invalid fun i => (slotNum b).elim .invalid fun j => .slots [i, j]
      | _ => .invalid

/-- `1 << (side - 1)`. -/
def sideBit (side : Word) : Word := BitVec.ofNat 32 1 <<< (side.toNat - 1)

namespace Market

def robot (m : Market) : Robot := m.bureau.robot

def player (m : Market) (i : Slot) : Player := m.bureau.player i

def alive (m : Market) (i : Slot) : Bool := (m.player i).status == .palive

def tell (m : Market) (d : Announcement) : Market := { m with log := d :: m.log }

/-- The bit of a side. -/
def bit (m : Market) (t : Side) : Word := sideBit (m.robot.teams t).side

/-- The slots that `do_trade` remembers. -/
def pendingSlots (m : Market) : List Slot := m.trade.swap.1.toList ++ m.trade.swap.2.toList

/-- The request that a side makes now. -/
def request (m : Market) (us : Side) (names : List Slot) : Request := ⟨us, names, m.occupant⟩

/-- Whether the slots can be traded: they are alive, two of them differ and so do their teams, and none is a captain. -/
def tradable (m : Market) (names : List Slot) : Bool :=
  names.all m.alive &&
    (match names with
      | [a, b] => a != b && (m.player a).team != (m.player b).team
      | _ => true) &&
    names.all fun i => (m.robot.teams home).captain != some i && (m.robot.teams away).captain != some i

/-- A request is made, or made anew by the side that had made one; the second slot stays as it was if one is named. -/
def ask (m : Market) (us : Side) (names : List Slot) : Market :=
  let trade : Trade :=
    match names with
    | [a] => ⟨(some a, m.trade.swap.2), 1, some us⟩
    | [a, b] => ⟨(some a, some b), 2, some us⟩
    | _ => m.trade
  { m with trade := trade }.tell (.asked (m.request us names))

/-- The players change teams, and the request is forgotten. -/
def approve (m : Market) (us : Side) (names : List Slot) : Market :=
  let usB := m.bit us
  let themB := m.bit us.other
  let b :=
    match names with
    | [a] =>
      if (m.player a).team = usB then m.bureau.changeTeam a themB usB else m.bureau.changeTeam a usB themB
    | [a, b] =>
      let (i, j) := if (m.player a).team = usB then (b, a) else (a, b)
      (m.bureau.changeTeam i usB themB).changeTeam j themB usB
    | _ => m.bureau
  { m with bureau := b, trade := .reset }.tell (.moved (m.request us names))

/-- The pending request is about these slots, in any order. -/
def matchesPending (m : Market) (names : List Slot) : Bool :=
  match names with
  | [a] => m.trade.swapnum == 1 && m.trade.swap.1 == some a
  | [a, b] => m.trade.swapnum == 2 && (m.trade.swap == (some a, some b) || m.trade.swap == (some b, some a))
  | _ => false

/-- `do_trade` with slots named. -/
def tradeSlots (m : Market) (us : Side) (names : List Slot) : Market :=
  if !m.tradable names then m
  else if m.trade.swapnum = 0 ∨ m.trade.swapteam = some us then m.ask us names
  else if m.matchesPending names then m.approve us names
  -- the captain is told what is pending
  else m

/-- `do_trade`. -/
def doTrade (m : Market) (who : Slot) (comm : List Char) : Market :=
  if !m.robot.stat.change then m
  else
    match checkPlayer m.robot who true with
    | none => m
    | some us =>
      match m.pendingSlots.find? fun i => !m.alive i with
      | some i => { m with trade := .reset }.tell (.lapsed i (m.player i).status)
      | none =>
        match tradeText comm with
        | .status => m
        | .reset => if m.trade.swapnum = 0 then m else { m with trade := .reset }.tell (.declined us)
        | .slots names => m.tradeSlots us names
        | .invalid => m

end Market

/-! ## What should happen -/

/-- The request that is pending, as the players know it. -/
def pending : List Announcement → Option Request
  | .asked r :: _ => some r
  | _ => none

/-- A request is replaced by its own side only; players are moved when the other side names the same slots while the
same players sit there; and a request lapses only because a slot it names is not alive. -/
def InOrder : List Announcement → Prop
  | [] => True
  | .asked r :: l => (∀ r' ∈ pending l, r'.side = r.side) ∧ InOrder l
  | .moved r :: l =>
    (∃ r' ∈ pending l, r'.side ≠ r.side ∧ r.names.Perm r'.names ∧ ∀ i ∈ r.names, r.occupant i = r'.occupant i) ∧ InOrder l
  | .declined _ :: l => InOrder l
  | .lapsed i status :: l => (∃ r ∈ pending l, i ∈ r.names ∧ status ≠ .palive) ∧ InOrder l

namespace Market

/-- The players of a race. -/
def population (m : Market) (team : Word) : Nat :=
  (Finset.univ.filter fun j => (m.player j).status ≠ .pfree ∧ (m.player j).team = team).card

/-- A command that moves players says so, names them, and moves as many each way if it moves two; a request or an approval
is that of the side whose captain sent the command. -/
structure Fair (m : Market) (who : Slot) (m' : Market) : Prop where
  captain : ∀ r, m'.log = .asked r :: m.log ∨ m'.log = .moved r :: m.log → checkPlayer m.robot who true = some r.side
  named : ∀ j, (m'.player j).team ≠ (m.player j).team → ∃ r, m'.log = .moved r :: m.log ∧ j ∈ r.names
  even : ∀ r, m'.log = .moved r :: m.log → r.names.length = 2 →
    ∀ t, m'.population (m'.robot.teams t).side = m.population (m.robot.teams t).side

/-! ## Runs -/

/-- A command, or anything else: commands of other kinds, deaths, quits, new players. -/
inductive Haggle
  | trade (who : Slot) (comm : List Char)
  | elsewhere (b : Bureau) (occupant : Slot → Nat)

def step (m : Market) : Haggle → Market
  | .trade who comm => m.doTrade who comm
  | .elsewhere b occupant => { m with bureau := b, occupant := occupant }

/-- The sides have their first races as long as things can be changed. -/
def Standard (r : Robot) : Prop := r.stat.change = true → (r.teams home).side = homeTeam ∧ (r.teams away).side = awayTeam

def lawful (_ : Market) : Haggle → Prop
  | .trade .. => True
  | .elsewhere b _ => Standard b.robot

/-- When a captain's command comes while a request is pending, no slot but those it names is remembered and not alive; and
if the command is the other side's approval, the slots are held by those who held them when it was made, and by
players of the two teams if there are two. -/
def ok (m : Market) : Haggle → Prop
  | .trade who comm =>
    m.robot.stat.change = true → ∀ us ∈ checkPlayer m.robot who true, ∀ r ∈ pending m.log,
      (∀ i ∈ m.pendingSlots, m.alive i = true ∨ ∃ k ∈ r.names, m.alive k = false) ∧
        ∀ names, tradeText comm = .slots names → r.side ≠ us → names.Perm r.names → ∀ i ∈ names, m.alive i = true →
          m.occupant i = r.occupant i ∧
            (names.length = 2 → (m.player i).team = homeTeam ∨ (m.player i).team = awayTeam)
  | .elsewhere .. => True

/-- Nothing has been asked. -/
structure Fresh (m : Market) : Prop where
  trade : m.trade = .reset
  log : m.log = []
  standard : Standard m.robot

end Market

/-! ## Changing teams -/

theorem player_changeTeamQuietly (r : SlotMaint.Roster) (k j : Slot) (ours theirs : Word) :
    (SlotMaint.changeTeamQuietly r k ours theirs).player j =
      if j = k then ((SlotMaint.changeTeamQuietly r k ours theirs).player k) else r.player j := by
  by_cases h : j = k
  · rw [if_pos h, h]
  · rw [if_neg h]
    rw [SlotMaint.changeTeamQuietly_eq]
    dsimp only
    split
    · simp [h]
    · simp [h]

/-- One player changes teams, and explodes. -/
structure Moved (b b' : Bureau) (k : Slot) (team : Word) : Prop where
  team : (b'.player k).team = team
  status : (b'.player k).status = .pexplode
  other : ∀ j, j ≠ k → b'.player j = b.player j
  robot : b'.robot.teams = b.robot.teams ∧ b'.robot.stat = b.robot.stat

/-- Only the player who changes teams moves. -/
theorem moved_changeTeam (b : Bureau) (k : Slot) (ours theirs : Word) : Moved b (b.changeTeam k ours theirs) k ours := by
  have hplayer (j : Slot) : (b.changeTeam k ours theirs).player j =
      if j = k then explodeTraded ((SlotMaint.changeTeamQuietly b.roster k ours theirs).player k)
      else (SlotMaint.changeTeamQuietly b.roster k ours theirs).player j := by
    unfold Bureau.changeTeam
    rw [Bureau.player_modifyPlayer]
    rfl
  refine ⟨?_, ?_, ?_, rfl, rfl⟩
  · rw [hplayer, if_pos rfl]
    show ((SlotMaint.changeTeamQuietly b.roster k ours theirs).player k).team = ours
    rw [SlotMaint.changeTeamQuietly_eq]
    dsimp only
    rw [SlotMaint.Roster.player_modifyPlayer, if_pos rfl]
    rfl
  · rw [hplayer, if_pos rfl]
    rfl
  · intro j hj
    rw [hplayer, if_neg hj, player_changeTeamQuietly, if_neg hj]
    rfl

/-! ## What a command does -/

namespace Market

variable {m : Market} {us : Side} {names : List Slot} {who : Slot} {comm : List Char}

/-- A captain asks, and every slot that is remembered is alive. -/
structure Heard (m : Market) (who : Slot) (us : Side) : Prop where
  change : m.robot.stat.change = true
  captain : checkPlayer m.robot who true = some us
  alive : ∀ i ∈ m.pendingSlots, m.alive i = true

/-- The outcomes of a command. -/
inductive Outcome (m : Market) (who : Slot) (comm : List Char) : Market → Prop
  | nothing : Outcome m who comm m
  | lapse {us : Side} {i : Slot} (hchange : m.robot.stat.change = true) (hcaptain : checkPlayer m.robot who true = some us)
      (hfirst : m.pendingSlots.find? (fun i => !m.alive i) = some i) :
      Outcome m who comm ({ m with trade := .reset }.tell (.lapsed i (m.player i).status))
  | decline {us : Side} (h : Heard m who us) :
      Outcome m who comm ({ m with trade := .reset }.tell (.declined us))
  | ask {us : Side} {names : List Slot} (h : Heard m who us) (htext : tradeText comm = .slots names)
      (hown : m.trade.swapnum = 0 ∨ m.trade.swapteam = some us) : Outcome m who comm (m.ask us names)
  | approve {us : Side} {names : List Slot} (h : Heard m who us) (htext : tradeText comm = .slots names)
      (htradable : m.tradable names = true) (hnum : m.trade.swapnum ≠ 0) (hteam : m.trade.swapteam ≠ some us)
      (hmatch : m.matchesPending names = true) : Outcome m who comm (m.approve us names)

/-- Every command comes to one of these. -/
theorem doTrade_outcome (m : Market) (who : Slot) (comm : List Char) : Outcome m who comm (m.doTrade who comm) := by
  unfold doTrade
  split
  · exact .nothing
  next hchange =>
  have hchange : m.robot.stat.change = true := by simpa using hchange
  cases hcaptain : checkPlayer m.robot who true with
  | none => exact .nothing
  | some us =>
    dsimp only
    cases hfind : m.pendingSlots.find? fun i => !m.alive i with
    | some i => exact .lapse hchange hcaptain hfind
    | none =>
      have hheard : Heard m who us := by
        refine ⟨hchange, hcaptain, fun i hi => ?_⟩
        simpa using List.find?_eq_none.1 hfind i hi
      dsimp only
      cases htext : tradeText comm with
      | status => exact .nothing
      | invalid => exact .nothing
      | reset =>
        dsimp only
        split
        · exact .nothing
        · exact .decline hheard
      | slots names =>
        dsimp only
        unfold tradeSlots
        split
        · exact .nothing
        next htradable =>
        split
        · next hown => exact .ask hheard htext hown
        next hown =>
        rw [not_or] at hown
        split
        · next hmatch => exact .approve hheard htext (by simpa using htradable) hown.1 hown.2 hmatch
        · exact .nothing

/-- A text names one slot or two. -/
theorem names_of_tradeText (h : tradeText comm = .slots names) : (∃ a, names = [a]) ∨ ∃ a b, names = [a, b] := by
  unfold tradeText at h
  dsimp only at h
  split at h
  · cases h
  split at h
  · cases h
  split at h
  · next a _ =>
    cases hi : slotNum a with
    | none =>
      rw [hi] at h
      cases h
    | some i =>
      rw [hi] at h
      cases h
      exact .inl ⟨i, rfl⟩
  · next a b _ =>
    cases hi : slotNum a with
    | none =>
      rw [hi] at h
      cases h
    | some i =>
      cases hj : slotNum b with
      | none =>
        rw [hi, hj] at h
        cases h
      | some j =>
        rw [hi, hj] at h
        cases h
        exact .inr ⟨i, j, rfl⟩
  · cases h

/-! ## The request that is kept -/

/-- What `do_trade` keeps is the request that is pending. -/
def Agrees (m : Market) : Prop :=
  match pending m.log with
  | none => m.trade = .reset
  | some r => m.trade.swapteam = some r.side ∧
      ((∃ a, r.names = [a] ∧ m.trade.swapnum = 1 ∧ m.trade.swap.1 = some a) ∨
        ∃ a b, r.names = [a, b] ∧ m.trade.swapnum = 2 ∧ m.trade.swap = (some a, some b))

theorem Agrees.of_none (h : Agrees m) (hp : pending m.log = none) : m.trade = .reset := by
  unfold Agrees at h
  rw [hp] at h
  exact h

theorem Agrees.of_some {r : Request} (h : Agrees m) (hp : pending m.log = some r) : m.trade.swapteam = some r.side ∧
    ((∃ a, r.names = [a] ∧ m.trade.swapnum = 1 ∧ m.trade.swap.1 = some a) ∨
      ∃ a b, r.names = [a, b] ∧ m.trade.swapnum = 2 ∧ m.trade.swap = (some a, some b)) := by
  unfold Agrees at h
  rw [hp] at h
  exact h

/-- A request that is kept is pending. -/
theorem Agrees.exists_pending (h : Agrees m) (hnum : m.trade.swapnum ≠ 0) : ∃ r, pending m.log = some r := by
  cases hp : pending m.log with
  | none =>
    rw [h.of_none hp] at hnum
    exact absurd rfl hnum
  | some r => exact ⟨r, rfl⟩

/-- The slots that match are those of the pending request. -/
theorem Agrees.perm {r : Request} (h : Agrees m) (hp : pending m.log = some r) (hmatch : m.matchesPending names = true) :
    names.Perm r.names := by
  unfold matchesPending at hmatch
  obtain ⟨-, ⟨a, hn, hnum, hswap⟩ | ⟨a, b, hn, hnum, hswap⟩⟩ := h.of_some hp
  · split at hmatch
    · next c =>
      rw [hswap] at hmatch
      have hac : a = c := by simpa [hnum] using hmatch
      rw [hn, hac]
    · simp [hnum] at hmatch
    · cases hmatch
  · split at hmatch
    · simp [hnum] at hmatch
    · next c d =>
      rw [hswap] at hmatch
      have hcd : a = c ∧ b = d ∨ a = d ∧ b = c := by simpa [hnum] using hmatch
      rw [hn]
      rcases hcd with ⟨rfl, rfl⟩ | ⟨rfl, rfl⟩
      · exact .refl _
      · exact .swap _ _ _
    · cases hmatch

/-- The first remembered slot that is not alive is one that the pending request names, if no other is. -/
theorem Agrees.named_of_first {i : Slot} (h : Agrees m) (hfirst : m.pendingSlots.find? (fun i => !m.alive i) = some i)
    (hstale : ∀ r ∈ pending m.log, ∀ i ∈ m.pendingSlots, m.alive i = true ∨ ∃ k ∈ r.names, m.alive k = false) :
    ∃ r ∈ pending m.log, i ∈ r.names := by
  have hdead : m.alive i = false := by simpa using List.find?_some hfirst
  have hmem := List.mem_of_find?_eq_some hfirst
  cases hp : pending m.log with
  | none =>
    unfold pendingSlots at hmem
    rw [h.of_none hp] at hmem
    cases hmem
  | some r =>
    refine ⟨r, rfl, ?_⟩
    unfold pendingSlots at hfirst hmem
    obtain ⟨-, ⟨a, hn, -, hswap⟩ | ⟨a, b, hn, -, hswap⟩⟩ := h.of_some hp
    · rw [hn]
      rw [hswap] at hfirst
      by_cases ha : m.alive a = false
      -- the slot that is named comes first
      · have : a = i := by simpa [ha] using hfirst
        exact List.mem_singleton.2 this.symm
      · rcases hstale r hp i (List.mem_of_find?_eq_some (by rw [← hswap] at hfirst; exact hfirst)) with hi | ⟨k, hk, hkd⟩
        · rw [hdead] at hi
          cases hi
        · rw [hn, List.mem_singleton] at hk
          exact absurd (hk ▸ hkd) ha
    · rw [hswap] at hmem
      rw [hn]
      simpa using hmem

/-! ## Steps -/

/-- What every step keeps. -/
structure Inv (m : Market) : Prop where
  agrees : Agrees m
  inOrder : InOrder m.log
  standard : Standard m.robot

/-- The tables of the robot stay as they are when players are moved. -/
theorem robot_approve (m : Market) (us : Side) (names : List Slot) :
    (m.approve us names).robot.teams = m.robot.teams ∧ (m.approve us names).robot.stat = m.robot.stat := by
  unfold approve
  split
  · show (Bureau.robot (if _ then _ else _)).teams = _ ∧ (Bureau.robot (if _ then _ else _)).stat = _
    split
    · exact (moved_changeTeam _ _ _ _).robot
    · exact (moved_changeTeam _ _ _ _).robot
  · exact ⟨rfl, rfl⟩
  · exact ⟨rfl, rfl⟩

theorem alive_of_tradable (h : m.tradable names = true) : ∀ i ∈ names, m.alive i = true := by
  unfold tradable at h
  rw [Bool.and_eq_true, Bool.and_eq_true] at h
  exact List.all_eq_true.1 h.1.1

/-- Whatever a command comes to, the announcements stay in order. -/
theorem Inv.doTrade (h : Inv m) (hok : m.ok (.trade who comm)) : Inv (m.doTrade who comm) := by
  have houtcome := doTrade_outcome m who comm
  generalize m.doTrade who comm = m' at houtcome
  cases houtcome with
  | nothing => exact h
  | @lapse us i hchange hcaptain hfirst =>
    obtain ⟨r, hp, hi⟩ := h.agrees.named_of_first hfirst fun r hr => (hok hchange _ hcaptain r hr).1
    have hdead : m.alive i = false := by simpa using List.find?_some hfirst
    refine ⟨rfl, ⟨⟨r, hp, hi, ?_⟩, h.inOrder⟩, h.standard⟩
    intro hs
    rw [show m.alive i = ((m.player i).status == .palive) from rfl, hs] at hdead
    cases hdead
  | decline hheard => exact ⟨rfl, h.inOrder, h.standard⟩
  | @ask us names hheard htext hown =>
    have hside : ∀ r ∈ pending m.log, r.side = us := by
      intro r hr
      obtain ⟨hteam, hkept⟩ := h.agrees.of_some hr
      rcases hown with hnum | hown
      · obtain ⟨a, -, hone, -⟩ | ⟨a, b, -, htwo, -⟩ := hkept <;> omega
      · rw [hteam] at hown
        exact Option.some.inj hown
    refine ⟨?_, ⟨hside, h.inOrder⟩, h.standard⟩
    rcases names_of_tradeText htext with ⟨a, rfl⟩ | ⟨a, b, rfl⟩
    · exact ⟨rfl, .inl ⟨a, rfl, rfl, rfl⟩⟩
    · exact ⟨rfl, .inr ⟨a, b, rfl, rfl, rfl⟩⟩
  | @approve us names hheard htext htradable hnum hteam hmatch =>
    obtain ⟨r, hp⟩ := h.agrees.exists_pending hnum
    have hperm := h.agrees.perm hp hmatch
    have hside : r.side ≠ us := by
      intro hs
      rw [(h.agrees.of_some hp).1, hs] at hteam
      exact hteam rfl
    have halive := alive_of_tradable htradable
    have hanswer := (hok hheard.change us hheard.captain r hp).2 names htext hside hperm
    refine ⟨rfl, ⟨⟨r, hp, hside, hperm, fun i hi => (hanswer i hi (halive i hi)).1⟩, h.inOrder⟩, ?_⟩
    intro hchange
    obtain ⟨hteams, hstat⟩ := robot_approve m us names
    rw [hstat] at hchange
    rw [hteams]
    exact h.standard hchange

theorem Inv.step (h : Inv m) {a : Haggle} (hlawful : m.lawful a) (hok : m.ok a) : Inv (m.step a) := by
  cases a with
  | trade who comm => exact h.doTrade hok
  | elsewhere b occupant => exact ⟨h.agrees, h.inOrder, hlawful⟩

/-! ## Who is moved -/

theorem player_approve_one (m : Market) (us : Side) (a j : Slot) (hj : j ≠ a) :
    (m.approve us [a]).player j = m.player j := by
  show (Bureau.player (if _ then _ else _) j) = _
  split
  · exact (moved_changeTeam _ _ _ _).other j hj
  · exact (moved_changeTeam _ _ _ _).other j hj

/-- Of two players of the two sides, each goes to the side of the other. -/
theorem player_approve_two (m : Market) (us : Side) {a b : Slot} (hab : a ≠ b) :
    (∀ j, j ≠ a → j ≠ b → (m.approve us [a, b]).player j = m.player j) ∧
      (∀ j, j = a ∨ j = b → ((m.approve us [a, b]).player j).status = .pexplode) ∧
        if (m.player a).team = m.bit us then
          ((m.approve us [a, b]).player a).team = m.bit us.other ∧ ((m.approve us [a, b]).player b).team = m.bit us
        else ((m.approve us [a, b]).player a).team = m.bit us ∧ ((m.approve us [a, b]).player b).team = m.bit us.other := by
  have hpair (i j : Slot) (hij : i ≠ j) (b' : Bureau)
      (hb : b' = (m.bureau.changeTeam i (m.bit us) (m.bit us.other)).changeTeam j (m.bit us.other) (m.bit us)) :
      (∀ k, k ≠ i → k ≠ j → b'.player k = m.player k) ∧ (∀ k, k = i ∨ k = j → (b'.player k).status = .pexplode) ∧
        (b'.player i).team = m.bit us ∧ (b'.player j).team = m.bit us.other := by
    subst hb
    have h₁ := moved_changeTeam m.bureau i (m.bit us) (m.bit us.other)
    have h₂ := moved_changeTeam (m.bureau.changeTeam i (m.bit us) (m.bit us.other)) j (m.bit us.other) (m.bit us)
    refine ⟨fun k hi hj => (h₂.other k hj).trans (h₁.other k hi), ?_, ?_, h₂.team⟩
    · rintro k (rfl | rfl)
      · rw [h₂.other k hij]
        exact h₁.status
      · exact h₂.status
    · rw [h₂.other i hij]
      exact h₁.team
  by_cases ht : (m.player a).team = m.bit us
  · have hb : (m.approve us [a, b]).bureau =
        (m.bureau.changeTeam b (m.bit us) (m.bit us.other)).changeTeam a (m.bit us.other) (m.bit us) := by
      show (let (i, j) := if (m.player a).team = m.bit us then (b, a) else (a, b)
        (m.bureau.changeTeam i (m.bit us) (m.bit us.other)).changeTeam j (m.bit us.other) (m.bit us)) = _
      rw [if_pos ht]
    obtain ⟨hother, hstatus, hb', ha'⟩ := hpair b a hab.symm _ hb
    rw [if_pos ht]
    exact ⟨fun j ha hb => hother j hb ha, fun j hj => hstatus j hj.symm, ha', hb'⟩
  · have hb : (m.approve us [a, b]).bureau =
        (m.bureau.changeTeam a (m.bit us) (m.bit us.other)).changeTeam b (m.bit us.other) (m.bit us) := by
      show (let (i, j) := if (m.player a).team = m.bit us then (b, a) else (a, b)
        (m.bureau.changeTeam i (m.bit us) (m.bit us.other)).changeTeam j (m.bit us.other) (m.bit us)) = _
      rw [if_neg ht]
    obtain ⟨hother, hstatus, ha', hb'⟩ := hpair a b hab _ hb
    rw [if_neg ht]
    exact ⟨hother, hstatus, ha', hb'⟩

/-- While things can be changed, the bit of a side is its race. -/
theorem bit_of_standard (h : Standard m.robot) (hchange : m.robot.stat.change = true) (us : Side) :
    (m.bit us = homeTeam ∧ m.bit us.other = awayTeam) ∨ (m.bit us = awayTeam ∧ m.bit us.other = homeTeam) := by
  obtain ⟨hhome, haway⟩ := h hchange
  have hh : m.bit home = homeTeam := by
    unfold bit
    rw [hhome]
    decide
  have ha : m.bit away = awayTeam := by
    unfold bit
    rw [haway]
    decide
  rcases Side.cases us with rfl | rfl
  · exact .inl ⟨hh, ha⟩
  · exact .inr ⟨ha, hh⟩

theorem tradable_two {a b : Slot} (h : m.tradable [a, b] = true) : a ≠ b ∧ (m.player a).team ≠ (m.player b).team := by
  unfold tradable at h
  rw [Bool.and_eq_true, Bool.and_eq_true] at h
  have hab := h.1.2
  rw [Bool.and_eq_true] at hab
  exact ⟨bne_iff_ne.1 hab.1, bne_iff_ne.1 hab.2⟩

/-- Two players of the two sides who are traded swap their teams. -/
theorem team_approve_two (us : Side) {a b : Slot} (htradable : m.tradable [a, b] = true) (hchange : m.robot.stat.change = true)
    (hstandard : Standard m.robot)
    (hsides : ∀ i ∈ [a, b], (m.player i).team = homeTeam ∨ (m.player i).team = awayTeam) :
    ((m.approve us [a, b]).player a).team = (m.player b).team ∧
      ((m.approve us [a, b]).player b).team = (m.player a).team := by
  obtain ⟨hab, hteams⟩ := tradable_two htradable
  obtain ⟨-, -, hmoved⟩ := player_approve_two m us hab
  have ha := hsides a List.mem_cons_self
  have hb := hsides b (List.mem_cons_of_mem _ (List.mem_singleton_self b))
  have hbits := bit_of_standard hstandard hchange us
  have hne : homeTeam ≠ awayTeam := by decide
  split at hmoved
  · next ht =>
    rw [hmoved.1, hmoved.2, ht]
    rw [ht] at hteams
    refine ⟨?_, rfl⟩
    rcases hbits with ⟨h₁, h₂⟩ | ⟨h₁, h₂⟩ <;> rcases hb with h | h <;> simp_all
  · next ht =>
    rw [hmoved.1, hmoved.2]
    rcases hbits with ⟨h₁, h₂⟩ | ⟨h₁, h₂⟩ <;> rcases ha with ha | ha <;> rcases hb with hb | hb <;> simp_all

/-- Two players who are traded for one another leave the sizes of the teams. -/
theorem population_approve_two {a b : Slot} (htradable : m.tradable [a, b] = true) (hchange : m.robot.stat.change = true)
    (hstandard : Standard m.robot)
    (hsides : ∀ i ∈ [a, b], (m.player i).team = homeTeam ∨ (m.player i).team = awayTeam) (team : Word) :
    (m.approve us [a, b]).population team = m.population team := by
  obtain ⟨hab, -⟩ := tradable_two htradable
  obtain ⟨hother, hstatus, -⟩ := player_approve_two m us hab
  obtain ⟨hta, htb⟩ := team_approve_two us htradable hchange hstandard hsides
  have halive (i : Slot) (hi : i ∈ [a, b]) : (m.player i).status ≠ .pfree := by
    have := alive_of_tradable htradable i hi
    rw [show m.alive i = ((m.player i).status == .palive) from rfl, beq_iff_eq] at this
    rw [this]
    exact PStatus.noConfusion
  have hexploded (i : Slot) (hi : i = a ∨ i = b) : ((m.approve us [a, b]).player i).status ≠ .pfree := by
    rw [hstatus i hi]
    exact PStatus.noConfusion
  unfold population
  refine Finset.card_equiv (Equiv.swap a b) fun j => ?_
  rw [Finset.mem_filter, Finset.mem_filter]
  refine and_congr (iff_of_true (Finset.mem_univ _) (Finset.mem_univ _)) ?_
  by_cases hja : j = a
  · subst hja
    rw [Equiv.swap_apply_left, hta]
    exact and_congr_left fun _ => iff_of_true (hexploded j (.inl rfl)) (halive b (by simp))
  by_cases hjb : j = b
  · subst hjb
    rw [Equiv.swap_apply_right, htb]
    exact and_congr_left fun _ => iff_of_true (hexploded j (.inr rfl)) (halive a (by simp))
  · rw [Equiv.swap_apply_of_ne_of_ne hja hjb, hother j hja hjb]

/-- Whatever a command comes to is fair. -/
theorem Inv.fair (h : Inv m) (hok : m.ok (.trade who comm)) : Fair m who (m.doTrade who comm) := by
  have hlog {d : Announcement} : m.log ≠ d :: m.log := fun he => by simpa using congrArg List.length he
  have houtcome := doTrade_outcome m who comm
  generalize m.doTrade who comm = m' at houtcome
  -- in all but the last case nobody is moved
  have hstill {m' : Market} (hb : m'.bureau = m.bureau) (hmoved : ∀ r, m'.log ≠ .moved r :: m.log)
      (hasked : ∀ r, m'.log = .asked r :: m.log → checkPlayer m.robot who true = some r.side) : Fair m who m' := by
    refine ⟨fun r hr => hr.elim (hasked r) fun hr => absurd hr (hmoved r), ?_, fun r hr => absurd hr (hmoved r)⟩
    intro j hj
    unfold Market.player at hj
    rw [hb] at hj
    exact absurd rfl hj
  cases houtcome with
  | nothing => exact hstill rfl (fun r => hlog) fun r hr => absurd hr hlog
  | lapse hchange hcaptain hfirst => exact hstill rfl (fun r hr => by cases (List.cons.inj hr).1) fun r hr => by cases (List.cons.inj hr).1
  | decline hheard => exact hstill rfl (fun r hr => by cases (List.cons.inj hr).1) fun r hr => by cases (List.cons.inj hr).1
  | @ask us names hheard htext hown =>
    refine hstill rfl (fun r hr => by cases (List.cons.inj hr).1) fun r hr => ?_
    obtain rfl : m.request us names = r := Announcement.asked.inj (List.cons.inj hr).1
    exact hheard.captain
  | @approve us names hheard htext htradable hnum hteam hmatch =>
    have hrequest {r : Request} (hr : (m.approve us names).log = .moved r :: m.log) : m.request us names = r :=
      Announcement.moved.inj (List.cons.inj hr).1
    refine ⟨?_, ?_, ?_⟩
    · rintro r (hr | hr)
      · cases (List.cons.inj hr).1
      · rw [← hrequest hr]
        exact hheard.captain
    · intro j hj
      refine ⟨m.request us names, rfl, ?_⟩
      rcases names_of_tradeText htext with ⟨a, rfl⟩ | ⟨a, b, rfl⟩
      · by_contra hja
        rw [show (m.request us [a]).names = [a] from rfl, List.mem_singleton] at hja
        exact hj (by rw [player_approve_one m us a j hja])
      · by_contra hja
        rw [show (m.request us [a, b]).names = [a, b] from rfl, List.mem_cons, List.mem_singleton, not_or] at hja
        obtain ⟨hother, -, -⟩ := player_approve_two m us (tradable_two htradable).1
        exact hj (by rw [hother j hja.1 hja.2])
    · intro r hr hlen t
      rw [← hrequest hr] at hlen
      rcases names_of_tradeText htext with ⟨a, rfl⟩ | ⟨a, b, rfl⟩
      · cases hlen
      · obtain ⟨r, hp⟩ := h.agrees.exists_pending hnum
        have hside : r.side ≠ us := by
          intro hs
          rw [(h.agrees.of_some hp).1, hs] at hteam
          exact hteam rfl
        have hanswer := (hok hheard.change us hheard.captain r hp).2 _ htext hside (h.agrees.perm hp hmatch)
        rw [(robot_approve m us [a, b]).1]
        refine population_approve_two htradable hheard.change h.standard (fun i hi => ?_) _
        exact (hanswer i hi (alive_of_tradable htradable i hi)).2 rfl

/-! ## Runs -/

/-- In every run in which slots of a pending request do not change hands before they are approved, no slot of an older
request is in the way, and two players who are traded belong to the two teams: requests are dealt with in order, and
every command moves only those that it says, and as many each way if it moves two. -/
theorem trades_agreed {m m' : Market} {ops : List Haggle} (h0 : Fresh m)
    (h : Run (fun m a => m.lawful a ∧ m.ok a) step m ops m') :
    InOrder m'.log ∧ ∀ who comm, m'.ok (.trade who comm) → Fair m' who (m'.doTrade who comm) := by
  have hstart : Inv m := by
    refine ⟨?_, ?_, h0.standard⟩
    · unfold Agrees
      rw [h0.log]
      exact h0.trade
    · rw [h0.log]
      exact trivial
  have hinv : Inv m' := Run.inv (I := Inv) (fun m a hok hm => hm.step hok.1 hok.2) h hstart
  exact ⟨hinv.inOrder, fun who comm hok => hinv.fair hok⟩

/-! ## Trades that go astray -/

/-- The captains sit in the slots 0 and 1; even slots are of the home team, odd ones of the away team, and a slot may be
not alive. -/
def hall (dead : Option Slot) : Bureau :=
  { (default : Bureau) with
    robot :=
      { (default : Robot) with
        stat := { (default : Stats) with change := true }
        teams := fun t =>
          { (default : Team) with
            captain := some (if t = home then 0 else 1)
            side := if t = home then homeTeam else awayTeam }
        mem :=
          { (default : Memory) with
            players := fun j =>
              { (default : Player) with
                status := if dead = some j then .pexplode else .palive
                team := if j.val % 2 = 0 then homeTeam else awayTeam
                wQueue := if j.val % 2 = 0 then quHome else quAway } } } }

theorem standard_hall (dead : Option Slot) : Standard (hall dead).robot := fun _ => ⟨rfl, rfl⟩

/-- Every slot is held by the player of its number. -/
def opening : Market := ⟨hall none, .reset, Fin.val, []⟩

theorem fresh_opening : Fresh opening := ⟨rfl, rfl, standard_hall none⟩

theorem trades_agreed_opening :
    InOrder (((opening.doTrade 0 "TRADE 2".toList).doTrade 1 "TRADE 2".toList).log) ∧
      ∀ who comm, ((opening.doTrade 0 "TRADE 2".toList).doTrade 1 "TRADE 2".toList).ok (.trade who comm) →
        Fair ((opening.doTrade 0 "TRADE 2".toList).doTrade 1 "TRADE 2".toList) who
          (((opening.doTrade 0 "TRADE 2".toList).doTrade 1 "TRADE 2".toList).doTrade who comm) := by
  have hfirst : opening.ok (.trade 0 "TRADE 2".toList) := by
    intro _ us _ r hr
    cases hr
  have hsecond : (opening.doTrade 0 "TRADE 2".toList).ok (.trade 1 "TRADE 2".toList) := by
    intro _ us _ r hr
    obtain rfl : (⟨home, [2], Fin.val⟩ : Request) = r := Option.some.inj hr
    refine ⟨fun i _ => .inl rfl, fun names _ _ hperm i _ _ => ⟨rfl, fun hlen => ?_⟩⟩
    rw [hperm.length_eq] at hlen
    cases hlen
  have hrun : Run (fun m a => m.lawful a ∧ m.ok a) step opening
      [.trade 0 "TRADE 2".toList, .trade 1 "TRADE 2".toList]
      ((opening.doTrade 0 "TRADE 2".toList).doTrade 1 "TRADE 2".toList) :=
    .cons ⟨trivial, hfirst⟩ (.cons ⟨trivial, hsecond⟩ (.nil _))
  exact trades_agreed fresh_opening hrun

/-- A request for slot 2 is approved after a new player took it; and a request for slot 4 lapses because slot 3, of the
request before it, is not alive. -/
theorem trades_astray :
    (∃ m', Run lawful step opening [.trade 0 "TRADE 2".toList, .elsewhere (hall none) (Function.update Fin.val 2 99),
      .trade 1 "TRADE 2".toList] m' ∧ ¬ InOrder m'.log) ∧
    ∃ m', Run lawful step opening [.trade 0 "TRADE 2 3".toList, .trade 0 "TRADE 4".toList,
      .elsewhere (hall (some 3)) Fin.val, .trade 1 "TRADE".toList] m' ∧ ¬ InOrder m'.log := by
  constructor
  · refine ⟨_, .cons trivial (.cons (standard_hall none) (.cons trivial (.nil _))), ?_⟩
    rintro ⟨⟨r, hr, -, -, hheld⟩, -⟩
    obtain rfl : (⟨home, [2], Fin.val⟩ : Request) = r := Option.some.inj hr
    have h99 : Function.update Fin.val (2 : Slot) 99 2 = 2 := hheld 2 (List.mem_singleton_self 2)
    rw [Function.update_self] at h99
    cases h99
  · refine ⟨_, .cons trivial (.cons trivial (.cons (standard_hall (some 3)) (.cons trivial (.nil _)))), ?_⟩
    rintro ⟨⟨r, hr, hnamed, -⟩, -⟩
    obtain rfl : (⟨home, [4], Fin.val⟩ : Request) = r := Option.some.inj hr
    have h34 : (3 : Slot) ∈ [4] := hnamed
    exact absurd h34 (by decide)

end Market

end Netrek.Inl
