/-
Resources: `pl_reset` of `ntserv/planet.c` and `pl_reset_inl` of `robots/inl.c` begin with the galaxy as it
was made, and place AGRI, REPAIR and FUEL at random on the planets of each home system. The first gives a
loop up that draws too long, the second goes on.
-/
import Mathlib.Data.Fin.VecNotation
import Mathlib.Data.Finset.Card
import Mathlib.Data.Finset.Image
import Mathlib.Data.Fintype.Basic
import NetrekServer.Inl.Robot
import NetrekServer.Lib.Redraw

namespace Netrek.Resources

open Netrek.Lib

/-! ## The galaxy as it was made -/

def startArmies : Int := 17

/-- A row of `virginal`; the armies are the same in each. -/
def row (flags owner : Word) (x y : Int) (name : String) (info : Word) : Planet where
  flags := flags
  x := x
  y := y
  owner := owner
  name := name
  armies := startArmies
  info := info

def virginal : List Planet :=
  [row (fed ||| plHome ||| plCore ||| plRepair ||| plFuel) fed 20000 80000 "Earth" fed,
    row fed fed 10000 60000 "Rigel" fed,
    row fed fed 25000 60000 "Canopus" fed,
    row fed fed 44000 81000 "Beta Crucis" fed,
    row fed fed 39000 55000 "Organia" fed,
    row (fed ||| plCore) fed 30000 90000 "Deneb" fed,
    row fed fed 45000 66000 "Ceti Alpha V" fed,
    row (fed ||| plCore) fed 11000 75000 "Altair" fed,
    row (fed ||| plCore) fed 8000 93000 "Vega" fed,
    row fed fed 32000 74000 "Alpha Centauri" fed,
    row (rom ||| plHome ||| plCore ||| plRepair ||| plFuel) rom 20000 20000 "Romulus" rom,
    row rom rom 45000 7000 "Eridani" rom,
    row (rom ||| plCore) rom 4000 12000 "Aldeberan" rom,
    row rom rom 42000 44000 "Regulus" rom,
    row rom rom 13000 45000 "Capella" rom,
    row (rom ||| plCore) rom 28000 8000 "Tauri" rom,
    row (rom ||| plCore) rom 28000 23000 "Draconis" rom,
    row rom rom 40000 25000 "Sirius" rom,
    row rom rom 25000 44000 "Indi" rom,
    row rom rom 8000 29000 "Hydrae" rom,
    row (kli ||| plHome ||| plCore ||| plRepair ||| plFuel) kli 80000 20000 "Klingus" kli,
    row kli kli 70000 40000 "Pliedes V" kli,
    row kli kli 60000 10000 "Andromeda" kli,
    row kli kli 56400 38200 "Lalande" kli,
    row (kli ||| plCore) kli 91120 9320 "Praxis" kli,
    row kli kli 89960 31760 "Lyrae" kli,
    row (kli ||| plCore) kli 70720 26320 "Scorpii" kli,
    row kli kli 83600 45400 "Mira" kli,
    row kli kli 54600 22600 "Cygni" kli,
    row (kli ||| plCore) kli 73080 6640 "Achernar" kli,
    row (ori ||| plHome ||| plCore ||| plRepair ||| plFuel) ori 80000 80000 "Orion" ori,
    row ori ori 91200 56600 "Cassiopeia" ori,
    row ori ori 70800 54200 "El Nath" ori,
    row ori ori 57400 62600 "Spica" ori,
    row (ori ||| plCore) ori 72720 70880 "Procyon" ori,
    row ori ori 61400 77000 "Polaris" ori,
    row ori ori 55600 89000 "Arcturus" ori,
    row (ori ||| plCore) ori 91000 94000 "Ursae Majoris" ori,
    row ori ori 70000 93000 "Herculis" ori,
    row (ori ||| plCore) ori 86920 68920 "Antares" ori]

abbrev Planets := Fin maxPlanets → Planet

/-- `pl_virgin`. -/
def plVirgin : Planets := fun l => virginal.get (l.cast (by rfl))

/-- The four close planets to the home planet. -/
def corePlanets : Fin 4 → Fin 4 → Fin maxPlanets :=
  ![![7, 9, 5, 8], ![12, 19, 15, 16], ![24, 29, 25, 26], ![34, 39, 38, 37]]

/-- The outside edge, going around in order. -/
def frontPlanets : Fin 4 → Fin 5 → Fin maxPlanets :=
  ![![1, 2, 4, 6, 3], ![14, 18, 13, 17, 11], ![22, 28, 23, 21, 27], ![31, 32, 33, 35, 36]]

/-! ## Placing -/

/-- The planets, the outcomes of `random()` still to come, and whether a placement loop has given up. -/
structure Galaxy where
  planets : Planets
  random : Nat → Nat
  gaveUp : Bool

/-- A planet gets a flag. -/
def mark (p : Planets) (l : Fin maxPlanets) (w : Word) : Planets :=
  fun m => if m = l then { p m with flags := (p m).flags ||| w } else p m

namespace Galaxy

def mark (g : Galaxy) (l : Fin maxPlanets) (w : Word) : Galaxy := { g with planets := Resources.mark g.planets l w }

/-- `random() % (n + 1)`. -/
def draw (n : Nat) (g : Galaxy) : Fin (n + 1) × Galaxy :=
  (Fin.ofNat (n + 1) (g.random 0), { g with random := fun k => g.random (k + 1) })

variable {n : Nat}

/-- One of some planets, drawn at random, gets a flag. -/
def place (cells : Fin (n + 1) → Fin maxPlanets) (w : Word) (g : Galaxy) : Galaxy :=
  let (k, g) := g.draw n
  g.mark (cells k) w

/-- The planet has FUEL. -/
def fuelled (g : Galaxy) (l : Fin maxPlanets) : Bool := (g.planets l).flags.has plFuel

/-- FUEL is placed on a planet drawn until it has none; after `GWIDTH` turns and one more the loop gives up, with what
was drawn last. -/
def placeFuel (cells : Fin (n + 1) → Fin maxPlanets) (g : Galaxy) : Galaxy :=
  let ((k, g), gaveUp) := drawOrGiveUp (Galaxy.draw n) (fun k => g.fuelled (cells k)) (gWidth.toNat + 1) g
  { g.mark (cells k) plFuel with gaveUp := g.gaveUp || gaveUp }

/-- Place 2 FUEL. -/
def placeFuels (cells : Fin (n + 1) → Fin maxPlanets) (g : Galaxy) : Galaxy := (g.placeFuel cells).placeFuel cells

/-- The same without a limit, for so many turns. -/
def placeFuelInl (turns : Nat) (cells : Fin (n + 1) → Fin maxPlanets) (g : Galaxy) : Option Galaxy :=
  (drawFree (Galaxy.draw n) (fun k => g.fuelled (cells k)) turns g).map fun (k, g) => g.mark (cells k) plFuel

def placeFuelsInl (turns : Nat) (cells : Fin (n + 1) → Fin maxPlanets) (g : Galaxy) : Option Galaxy :=
  (g.placeFuelInl turns cells).bind fun g => g.placeFuelInl turns cells

end Galaxy

/-- The front: AGRI on one of two planets, and REPAIR and 2 FUEL on the other three. -/
def placeFront (nearby : Fin 2 → Fin maxPlanets) (other : Fin 3 → Fin maxPlanets) (g : Galaxy) : Galaxy :=
  let g := g.place nearby plAgri
  let g := g.place other plRepair
  g.placeFuels other

/-- The coin decides from which end of the front the two planets are taken. -/
def byCoin {β : Type} (front : (Fin 2 → Fin maxPlanets) → (Fin 3 → Fin maxPlanets) → Galaxy → β) (i : Fin 4)
    (which : Fin 2) (g : Galaxy) : β :=
  if which.val ≠ 0 then front (fun j => frontPlanets i (j.castAdd 3)) (fun k => frontPlanets i (k.natAdd 2)) g
  else front (fun j => frontPlanets i (j.natAdd 3)) (fun k => frontPlanets i (k.castAdd 2)) g

/-- The turn of `pl_reset` for a home system. -/
def placeResources (i : Fin 4) (g : Galaxy) : Galaxy :=
  let g := g.place (corePlanets i) plAgri
  let (which, g) := g.draw 1
  let g := byCoin placeFront i which g
  let g := g.place (corePlanets i) plRepair
  g.placeFuels (corePlanets i)

/-- `pl_reset`, with `recreational_dogfight_mode` and `top_armies`. -/
def plReset (recreationalDogfightMode : Bool) (topArmies : Int) (g : Galaxy) : Galaxy :=
  let g := { g with planets := plVirgin }
  if recreationalDogfightMode then
    { g with planets := fun l =>
      { g.planets l with
        armies := 0, owner := nobody, flags := (g.planets l).flags ||| plRepair ||| plFuel, info := allTeam } }
  else
    let g := { g with planets := fun l => { g.planets l with armies := topArmies } }
    (List.finRange 4).foldl (fun g i => placeResources i g) g

/-- The front in `pl_reset_inl`: FUEL also on the planet next to the AGRI, where `rev` is the `!` of 0 or 1. -/
def placeFrontInl (turns : Nat) (nearby : Fin 2 → Fin maxPlanets) (other : Fin 3 → Fin maxPlanets) (g : Galaxy) :
    Option Galaxy :=
  let (j, g) := g.draw 1
  let g := g.mark (nearby j) plAgri
  let g := g.mark (nearby j.rev) plFuel
  let g := g.place other plRepair
  g.placeFuelsInl turns other

/-- The turn of `pl_reset_inl` for a home system. -/
def placeResourcesInl (turns : Nat) (i : Fin 4) (g : Galaxy) : Option Galaxy := do
  let g := g.place (corePlanets i) plAgri
  let (which, g) := g.draw 1
  let g ← byCoin (placeFrontInl turns) i which g
  let g := g.place (corePlanets i) plRepair
  g.placeFuelsInl turns (corePlanets i)

/-- `pl_reset_inl(1)`, as far as it makes the galaxy. -/
def plResetInl (turns : Nat) (g : Galaxy) : Option Galaxy :=
  let g := { g with planets := fun l => { plVirgin l with info := allTeam } }
  (List.finRange 4).foldlM (fun g i => placeResourcesInl turns i g) g

/-! ## Home systems -/

def home : Fin 4 → Fin maxPlanets := ![0, 10, 20, 30]

def core (i : Fin 4) : Finset (Fin maxPlanets) := Finset.univ.image (corePlanets i)

def front (i : Fin 4) : Finset (Fin maxPlanets) := Finset.univ.image (frontPlanets i)

def system (i : Fin 4) : Finset (Fin maxPlanets) := insert (home i) (core i ∪ front i)

/-- The places of the two planets that the AGRI on the front is drawn from, by the coin `which`. -/
def near : Bool → Fin 2 → Fin 5
  | true, j => j.castAdd 3
  | false, j => j.natAdd 3

/-- The places of the other three. -/
def far : Bool → Fin 3 → Fin 5
  | true, k => k.natAdd 2
  | false, k => k.castAdd 2

def candidates (i : Fin 4) (which : Bool) : Finset (Fin maxPlanets) :=
  Finset.univ.image fun j => frontPlanets i (near which j)

/-- The planets of a set that have a flag. -/
def holders (p : Planets) (w : Word) (s : Finset (Fin maxPlanets)) : Finset (Fin maxPlanets) :=
  s.filter fun l => (p l).flags.has w

/-- AGRI, REPAIR and FUEL. -/
def resources : Word := plAgri ||| plRepair ||| plFuel

/-- The resources of a home system; in a league one more planet of the front has FUEL. -/
structure Fair (league : Bool) (p : Planets) (i : Fin 4) : Prop where
  agri : (holders p plAgri (system i)).card = 2
  agri_core : (holders p plAgri (core i)).card = 1
  agri_front : (holders p plAgri (front i)).card = 1
  repair : (holders p plRepair (system i)).card = 3
  repair_home : home i ∈ holders p plRepair (system i)
  repair_core : (holders p plRepair (core i)).card = 1
  repair_front : (holders p plRepair (front i)).card = 1
  fuel : (holders p plFuel (system i)).card = if league then 6 else 5
  fuel_home : home i ∈ holders p plFuel (system i)
  fuel_core : (holders p plFuel (core i)).card = 2
  fuel_front : (holders p plFuel (front i)).card = if league then 3 else 2
  /-- Of the planets that the AGRI is drawn from none has REPAIR, and none FUEL, but for the one that is not drawn in a
  league. -/
  apart : ∃ which, holders p plAgri (front i) ⊆ candidates i which ∧ holders p plRepair (candidates i which) = ∅ ∧
    holders p plFuel (candidates i which) = if league then candidates i which \ holders p plAgri (front i) else ∅

/-- Every home system is fair, and no other flag has changed. -/
def AllFair (league : Bool) (p : Planets) : Prop :=
  (∀ i, Fair league p i) ∧ ∀ l, (p l).flags &&& ~~~resources = (plVirgin l).flags &&& ~~~resources

/-! ### The tables -/

theorem corePlanets_injective (i : Fin 4) : Function.Injective (corePlanets i) := by
  have h : ∀ i, ∀ a b, corePlanets i a = corePlanets i b → a = b := by decide
  exact fun a b => h i a b

theorem frontPlanets_injective (i : Fin 4) : Function.Injective (frontPlanets i) := by
  have h : ∀ i, ∀ a b, frontPlanets i a = frontPlanets i b → a = b := by decide
  exact fun a b => h i a b

theorem core_ne_front : ∀ i a b, corePlanets i a ≠ frontPlanets i b := by decide

theorem home_ne_core : ∀ i a, home i ≠ corePlanets i a := by decide

theorem home_ne_front : ∀ i a, home i ≠ frontPlanets i a := by decide

theorem near_injective (which : Bool) : Function.Injective (near which) := by
  have h : ∀ which, ∀ j j', near which j = near which j' → j = j' := by decide
  exact fun j j' => h which j j'

theorem far_injective (which : Bool) : Function.Injective (far which) := by
  have h : ∀ which, ∀ k k', far which k = far which k' → k = k' := by decide
  exact fun k k' => h which k k'

theorem near_ne_far : ∀ which j k, near which j ≠ far which k := by decide

/-- The ten planets of a system. -/
theorem mem_system : ∀ i l, l ∈ system i ↔ l.val / 10 = i.val := by decide +kernel

theorem virgin_home : ∀ i, (plVirgin (home i)).flags.has plAgri = false ∧ (plVirgin (home i)).flags.has plRepair = true ∧
    (plVirgin (home i)).flags.has plFuel = true := by decide +kernel

theorem virgin_core : ∀ i k, (plVirgin (corePlanets i k)).flags &&& resources = 0 := by decide +kernel

theorem virgin_front : ∀ i k, (plVirgin (frontPlanets i k)).flags &&& resources = 0 := by decide +kernel

/-! ## Marks -/

theorem has_or (a b w : Word) : Word.has (a ||| b) w = true ↔ a.has w = true ∨ b.has w = true := by
  simp only [Word.has_iff]
  rw [BitVec.and_or_distrib_right]
  exact (not_congr BitVec.or_eq_zero_iff).trans not_and_or

/-- Planets get flags, in order. -/
def marked (p : Planets) (marks : List (Fin maxPlanets × Word)) : Planets := marks.foldl (fun p m => mark p m.1 m.2) p

section Marks

variable {p q : Planets} {marks : List (Fin maxPlanets × Word)} {l : Fin maxPlanets}

theorem mark_of_ne {m : Fin maxPlanets} {w : Word} (h : m ≠ l) : mark p m w l = p l := if_neg h.symm

theorem has_mark (p : Planets) (m : Fin maxPlanets) (v w : Word) (l : Fin maxPlanets) :
    (mark p m v l).flags.has w = true ↔ (p l).flags.has w = true ∨ m = l ∧ v.has w = true := by
  by_cases h : l = m
  · subst h
    simp [mark, has_or]
  · rw [mark_of_ne (Ne.symm h)]
    simp [Ne.symm h]

/-- A planet has a flag that it had or is marked with. -/
theorem has_marked (w : Word) : (marked p marks l).flags.has w = true ↔
    (p l).flags.has w = true ∨ ∃ m ∈ marks, m.1 = l ∧ m.2.has w = true := by
  unfold marked
  induction marks generalizing p with
  | nil => simp
  | cons m marks ih => rw [List.foldl_cons, ih, has_mark, List.exists_mem_cons_iff, or_assoc]

theorem marked_of_ne (h : ∀ m ∈ marks, m.1 ≠ l) : marked p marks l = p l := by
  unfold marked
  induction marks generalizing p with
  | nil => rfl
  | cons m marks ih =>
    rw [List.foldl_cons, ih fun m' hm => h m' (List.mem_cons_of_mem m hm), mark_of_ne (h m List.mem_cons_self)]

theorem marked_congr (h : (p l).flags = (q l).flags) : (marked p marks l).flags = (marked q marks l).flags := by
  unfold marked
  induction marks generalizing p q with
  | nil => exact h
  | cons m marks ih =>
    rw [List.foldl_cons, List.foldl_cons]
    apply ih
    unfold mark
    split
    · dsimp only
      rw [h]
    · exact h

/-- Flags that no mark has stay as they are. -/
theorem marked_and {v : Word} (h : ∀ m ∈ marks, m.2 &&& v = 0) (l : Fin maxPlanets) :
    (marked p marks l).flags &&& v = (p l).flags &&& v := by
  unfold marked
  induction marks generalizing p with
  | nil => rfl
  | cons m marks ih =>
    rw [List.foldl_cons, ih fun m' hm => h m' (List.mem_cons_of_mem m hm)]
    unfold mark
    split
    · dsimp only
      rw [BitVec.and_or_distrib_right, h m List.mem_cons_self]
      exact BitVec.or_zero
    · rfl

theorem marked_info (p : Planets) (marks : List (Fin maxPlanets × Word)) (l : Fin maxPlanets) :
    (marked p marks l).info = (p l).info := by
  unfold marked
  induction marks generalizing p with
  | nil => rfl
  | cons m marks ih =>
    rw [List.foldl_cons, ih]
    unfold mark
    split <;> rfl

end Marks

/-! ## Deals -/

/-- Where the resources of a home system go. -/
structure Deal where
  agriCore : Fin 4
  which : Bool
  agri : Fin 2
  repair : Fin 3
  fuel : Fin 3
  fuel' : Fin 3
  fuel_ne : fuel ≠ fuel'
  repairCore : Fin 4
  fuelCore : Fin 4
  fuelCore' : Fin 4
  fuelCore_ne : fuelCore ≠ fuelCore'

/-- The marks on the front; in a league the planet next to the AGRI gets FUEL. -/
def Deal.frontMarks (d : Deal) (league : Bool) : List (Fin 5 × Word) :=
  [(near d.which d.agri, plAgri)] ++ (if league then [(near d.which d.agri.rev, plFuel)] else []) ++
    [(far d.which d.repair, plRepair), (far d.which d.fuel, plFuel), (far d.which d.fuel', plFuel)]

def Deal.coreMarks (d : Deal) : List (Fin 4 × Word) :=
  [(d.repairCore, plRepair), (d.fuelCore, plFuel), (d.fuelCore', plFuel)]

def Deal.marks (d : Deal) (league : Bool) (i : Fin 4) : List (Fin maxPlanets × Word) :=
  (corePlanets i d.agriCore, plAgri) :: (d.frontMarks league).map (fun m => (frontPlanets i m.1, m.2)) ++
    d.coreMarks.map fun m => (corePlanets i m.1, m.2)

section Deal

variable {league : Bool} {d : Deal} {i : Fin 4} {p : Planets}

theorem mem_marks {m : Fin maxPlanets × Word} : m ∈ d.marks league i ↔ m = (corePlanets i d.agriCore, plAgri) ∨
    (∃ x ∈ d.frontMarks league, (frontPlanets i x.1, x.2) = m) ∨ ∃ x ∈ d.coreMarks, (corePlanets i x.1, x.2) = m := by
  simp only [Deal.marks, List.cons_append, List.mem_cons, List.mem_append, List.mem_map]

theorem has_home (w : Word) : (marked p (d.marks league i) (home i)).flags.has w = (p (home i)).flags.has w := by
  rw [marked_of_ne]
  intro m hm heq
  rcases mem_marks.1 hm with rfl | ⟨x, -, rfl⟩ | ⟨x, -, rfl⟩
  · exact home_ne_core i _ heq.symm
  · exact home_ne_front i _ heq.symm
  · exact home_ne_core i _ heq.symm

/-- What is marked on a core planet: what was there, AGRI on one of them, and the resources dealt to it. -/
theorem has_core (w : Word) (k : Fin 4) : (marked p (d.marks league i) (corePlanets i k)).flags.has w = true ↔
    (p (corePlanets i k)).flags.has w = true ∨ (d.agriCore = k ∧ plAgri.has w = true) ∨
      ∃ x ∈ d.coreMarks, x.1 = k ∧ x.2.has w = true := by
  rw [has_marked]
  refine or_congr_right ?_
  constructor
  · rintro ⟨m, hm, heq, hw⟩
    rcases mem_marks.1 hm with rfl | ⟨x, -, rfl⟩ | ⟨x, hx, rfl⟩
    · exact .inl ⟨corePlanets_injective i heq, hw⟩
    · exact absurd heq (core_ne_front i _ _).symm
    · exact .inr ⟨x, hx, corePlanets_injective i heq, hw⟩
  · rintro (⟨rfl, hw⟩ | ⟨x, hx, rfl, hw⟩)
    · exact ⟨_, mem_marks.2 (.inl rfl), rfl, hw⟩
    · exact ⟨_, mem_marks.2 (.inr (.inr ⟨x, hx, rfl⟩)), rfl, hw⟩

theorem has_front (w : Word) (k : Fin 5) : (marked p (d.marks league i) (frontPlanets i k)).flags.has w = true ↔
    (p (frontPlanets i k)).flags.has w = true ∨ ∃ x ∈ d.frontMarks league, x.1 = k ∧ x.2.has w = true := by
  rw [has_marked]
  refine or_congr_right ?_
  constructor
  · rintro ⟨m, hm, heq, hw⟩
    rcases mem_marks.1 hm with rfl | ⟨x, hx, rfl⟩ | ⟨x, -, rfl⟩
    · exact absurd heq (core_ne_front i _ _)
    · exact ⟨x, hx, frontPlanets_injective i heq, hw⟩
    · exact absurd heq (core_ne_front i _ _)
  · rintro ⟨x, hx, rfl, hw⟩
    exact ⟨_, mem_marks.2 (.inr (.inl ⟨x, hx, rfl⟩)), rfl, hw⟩

/-! ### Counting -/

theorem card_holders_core {w : Word} {q : Fin 4 → Prop} [DecidablePred q]
    (h : ∀ k, (p (corePlanets i k)).flags.has w = true ↔ q k) : (holders p w (core i)).card = (Finset.univ.filter q).card := by
  unfold holders core
  rw [Finset.filter_image, Finset.card_image_of_injective _ (corePlanets_injective i)]
  simp only [h]

theorem card_holders_front {w : Word} {q : Fin 5 → Prop} [DecidablePred q]
    (h : ∀ k, (p (frontPlanets i k)).flags.has w = true ↔ q k) : (holders p w (front i)).card = (Finset.univ.filter q).card := by
  unfold holders front
  rw [Finset.filter_image, Finset.card_image_of_injective _ (frontPlanets_injective i)]
  simp only [h]

theorem card_holders_system (p : Planets) (w : Word) (i : Fin 4) :
    (holders p w (system i)).card =
      (if (p (home i)).flags.has w then 1 else 0) + ((holders p w (core i)).card + (holders p w (front i)).card) := by
  have hdisjoint : ∀ i, Disjoint (core i) (front i) := by decide +kernel
  have hhome : ∀ i, home i ∉ core i ∪ front i := by decide +kernel
  unfold holders system
  rw [Finset.filter_insert, Finset.filter_union,
    ← Finset.card_union_of_disjoint (Finset.disjoint_filter_filter (hdisjoint i))]
  split
  · rw [Finset.card_insert_of_notMem, Nat.add_comm]
    rw [← Finset.filter_union]
    exact fun h => hhome i (Finset.mem_filter.1 h).1
  · rw [Nat.zero_add]

/-! ### A deal is fair -/

theorem has_resources : plAgri.has plAgri = true ∧ plAgri.has plRepair = false ∧ plAgri.has plFuel = false ∧
    plRepair.has plAgri = false ∧ plRepair.has plRepair = true ∧ plRepair.has plFuel = false ∧
    plFuel.has plAgri = false ∧ plFuel.has plRepair = false ∧ plFuel.has plFuel = true := by decide

/-- No resource is where none has been placed. -/
theorem has_false {a w : Word} (h : a &&& resources = 0) (hw : resources &&& w = w) : a.has w = false := by
  rw [Bool.eq_false_iff, Ne, Word.has_iff, not_not, ← hw, ← BitVec.and_assoc, h]
  exact BitVec.zero_and

theorem resources_and : resources &&& plAgri = plAgri ∧ resources &&& plRepair = plRepair ∧ resources &&& plFuel = plFuel := by
  decide

theorem card_one {n : Nat} (a : Fin n) : (Finset.univ.filter fun k => a = k).card = 1 := by
  rw [Finset.filter_eq, if_pos (Finset.mem_univ a), Finset.card_singleton]

theorem card_two {n : Nat} {a b : Fin n} (h : a ≠ b) : (Finset.univ.filter fun k => a = k ∨ b = k).card = 2 := by
  rw [Finset.filter_or, Finset.filter_eq, Finset.filter_eq, if_pos (Finset.mem_univ a), if_pos (Finset.mem_univ b)]
  exact Finset.card_pair h

theorem card_three {n : Nat} {a b c : Fin n} (hab : a ≠ b) (hac : a ≠ c) (hbc : b ≠ c) :
    (Finset.univ.filter fun k => a = k ∨ b = k ∨ c = k).card = 3 := by
  rw [Finset.filter_or, Finset.filter_or, Finset.filter_eq, Finset.filter_eq, Finset.filter_eq,
    if_pos (Finset.mem_univ a), if_pos (Finset.mem_univ b), if_pos (Finset.mem_univ c)]
  exact Finset.card_eq_three.2 ⟨a, b, c, hab, hac, hbc, rfl⟩

/-- The flags of the planets of a system are those that it was made with and those of the deal. -/
def Dealt (league : Bool) (i : Fin 4) (d : Deal) (p : Planets) : Prop :=
  ∀ l ∈ system i, (p l).flags = (marked plVirgin (d.marks league i) l).flags

theorem home_mem (i : Fin 4) : home i ∈ system i := Finset.mem_insert_self ..

theorem core_mem (i k : Fin 4) : corePlanets i k ∈ system i :=
  Finset.mem_insert_of_mem (Finset.mem_union_left _ (Finset.mem_image_of_mem _ (Finset.mem_univ k)))

theorem front_mem (i : Fin 4) (k : Fin 5) : frontPlanets i k ∈ system i :=
  Finset.mem_insert_of_mem (Finset.mem_union_right _ (Finset.mem_image_of_mem _ (Finset.mem_univ k)))

namespace Dealt

variable (h : Dealt league i d p)

include h

theorem home_has (w : Word) : (p (home i)).flags.has w = (plVirgin (home i)).flags.has w := by
  rw [h _ (home_mem i), has_home]

theorem core_has {w : Word} (hw : resources &&& w = w) (k : Fin 4) : (p (corePlanets i k)).flags.has w = true ↔
    (d.agriCore = k ∧ plAgri.has w = true) ∨ ∃ x ∈ d.coreMarks, x.1 = k ∧ x.2.has w = true := by
  rw [h _ (core_mem i k), has_core, has_false (virgin_core i k) hw]
  simp

theorem front_has {w : Word} (hw : resources &&& w = w) (k : Fin 5) : (p (frontPlanets i k)).flags.has w = true ↔
    ∃ x ∈ d.frontMarks league, x.1 = k ∧ x.2.has w = true := by
  rw [h _ (front_mem i k), has_front, has_false (virgin_front i k) hw]
  simp

theorem core_agri (k : Fin 4) : (p (corePlanets i k)).flags.has plAgri = true ↔ d.agriCore = k := by
  rw [h.core_has resources_and.1]
  simp [Deal.coreMarks, has_resources]

theorem core_repair (k : Fin 4) : (p (corePlanets i k)).flags.has plRepair = true ↔ d.repairCore = k := by
  rw [h.core_has resources_and.2.1]
  simp [Deal.coreMarks, has_resources]

theorem core_fuel (k : Fin 4) : (p (corePlanets i k)).flags.has plFuel = true ↔ d.fuelCore = k ∨ d.fuelCore' = k := by
  rw [h.core_has resources_and.2.2]
  simp [Deal.coreMarks, has_resources]

theorem front_agri (k : Fin 5) : (p (frontPlanets i k)).flags.has plAgri = true ↔ near d.which d.agri = k := by
  rw [h.front_has resources_and.1]
  cases league <;> simp [Deal.frontMarks, has_resources]

theorem front_repair (k : Fin 5) : (p (frontPlanets i k)).flags.has plRepair = true ↔ far d.which d.repair = k := by
  rw [h.front_has resources_and.2.1]
  cases league <;> simp [Deal.frontMarks, has_resources]

theorem front_fuel (k : Fin 5) : (p (frontPlanets i k)).flags.has plFuel = true ↔
    league = true ∧ near d.which d.agri.rev = k ∨ far d.which d.fuel = k ∨ far d.which d.fuel' = k := by
  rw [h.front_has resources_and.2.2]
  cases league <;> simp [Deal.frontMarks, has_resources]

theorem card_core_agri : (holders p plAgri (core i)).card = 1 := (card_holders_core h.core_agri).trans (card_one _)

theorem card_core_repair : (holders p plRepair (core i)).card = 1 := (card_holders_core h.core_repair).trans (card_one _)

theorem card_core_fuel : (holders p plFuel (core i)).card = 2 :=
  (card_holders_core h.core_fuel).trans (card_two d.fuelCore_ne)

theorem card_front_agri : (holders p plAgri (front i)).card = 1 := (card_holders_front h.front_agri).trans (card_one _)

theorem card_front_repair : (holders p plRepair (front i)).card = 1 :=
  (card_holders_front h.front_repair).trans (card_one _)

theorem card_front_fuel : (holders p plFuel (front i)).card = if league then 3 else 2 := by
  have hne := (far_injective d.which).ne d.fuel_ne
  rw [card_holders_front h.front_fuel]
  cases league with
  | true =>
    simp only [true_and]
    exact card_three (near_ne_far _ _ _) (near_ne_far _ _ _) hne
  | false =>
    simp only [Bool.false_eq_true, false_and, false_or]
    exact card_two hne

/-- The other candidate has FUEL in a league, and else neither has. -/
theorem apart : holders p plAgri (front i) ⊆ candidates i d.which ∧ holders p plRepair (candidates i d.which) = ∅ ∧
    holders p plFuel (candidates i d.which) =
      if league then candidates i d.which \ holders p plAgri (front i) else ∅ := by
  refine ⟨?_, ?_, ?_⟩
  · intro l hl
    obtain ⟨hfront, hhas⟩ := Finset.mem_filter.1 hl
    obtain ⟨k, -, rfl⟩ := Finset.mem_image.1 hfront
    rw [← (h.front_agri k).1 hhas]
    exact Finset.mem_image_of_mem _ (Finset.mem_univ d.agri)
  · refine Finset.filter_eq_empty_iff.2 fun l hl hhas => ?_
    obtain ⟨j, -, rfl⟩ := Finset.mem_image.1 hl
    exact near_ne_far _ _ _ ((h.front_repair _).1 hhas).symm
  · have hagri (j : Fin 2) : (p (frontPlanets i (near d.which j))).flags.has plAgri = true ↔ d.agri = j := by
      rw [h.front_agri, (near_injective d.which).eq_iff]
    have hfuel (j : Fin 2) : (p (frontPlanets i (near d.which j))).flags.has plFuel = true ↔
        league = true ∧ d.agri.rev = j := by
      rw [h.front_fuel, (near_injective d.which).eq_iff]
      simp [(near_ne_far d.which j _).symm]
    have hrev : ∀ a j : Fin 2, a.rev = j ↔ a ≠ j := by decide
    cases league with
    | false =>
      refine Finset.filter_eq_empty_iff.2 fun l hl hhas => ?_
      obtain ⟨j, -, rfl⟩ := Finset.mem_image.1 hl
      cases ((hfuel j).1 hhas).1
    | true =>
      ext l
      rw [if_pos rfl, holders, holders, Finset.mem_filter, Finset.mem_sdiff, Finset.mem_filter]
      refine and_congr_right fun hl => ?_
      obtain ⟨j, -, rfl⟩ := Finset.mem_image.1 hl
      have hfront : frontPlanets i (near d.which j) ∈ front i := Finset.mem_image_of_mem _ (Finset.mem_univ _)
      rw [hfuel, hagri, hrev]
      simp [hfront]

/-- Every home system is dealt the same. -/
theorem fair : Fair league p i where
  agri := by rw [card_holders_system, h.home_has, (virgin_home i).1, h.card_core_agri, h.card_front_agri]; rfl
  agri_core := h.card_core_agri
  agri_front := h.card_front_agri
  repair := by rw [card_holders_system, h.home_has, (virgin_home i).2.1, h.card_core_repair, h.card_front_repair]; rfl
  repair_home := Finset.mem_filter.2 ⟨home_mem i, (h.home_has _).trans (virgin_home i).2.1⟩
  repair_core := h.card_core_repair
  repair_front := h.card_front_repair
  fuel := by
    rw [card_holders_system, h.home_has, (virgin_home i).2.2, h.card_core_fuel, h.card_front_fuel]
    cases league <;> rfl
  fuel_home := Finset.mem_filter.2 ⟨home_mem i, (h.home_has _).trans (virgin_home i).2.2⟩
  fuel_core := h.card_core_fuel
  fuel_front := h.card_front_fuel
  apart := ⟨d.which, h.apart⟩

end Dealt

end Deal

/-! ## What is placed -/

/-- The two planets that get FUEL differ. -/
theorem ne_of_not_fuelled {n : Nat} {cells : Fin (n + 1) → Fin maxPlanets} {g g' : Galaxy} {k k' : Fin (n + 1)}
    (hmark : g'.planets = mark g.planets (cells k) plFuel)
    (hfree : g'.fuelled (cells k') = false) : k ≠ k' := by
  rintro rfl
  have hhas : g'.fuelled (cells k) = true := by
    unfold Galaxy.fuelled
    rw [hmark, has_mark]
    exact .inr ⟨rfl, has_resources.2.2.2.2.2.2.2.2⟩
  rw [hhas] at hfree
  cases hfree

section Place

variable {n : Nat} {cells : Fin (n + 1) → Fin maxPlanets} {g g' : Galaxy} {turns : Nat}

theorem placeFuelInl_spec (h : g.placeFuelInl turns cells = some g') :
    ∃ k, g.fuelled (cells k) = false ∧ g'.planets = mark g.planets (cells k) plFuel := by
  obtain ⟨⟨k, g''⟩, hdraw, rfl⟩ := Option.map_eq_some_iff.1 h
  obtain ⟨hfree, hsame⟩ := drawFree_spec (f := Galaxy.planets) (fun _ => rfl) hdraw
  exact ⟨k, hfree, congrArg (fun p => mark p (cells k) plFuel) hsame⟩

theorem placeFuel_spec (h : (g.placeFuel cells).gaveUp = false) : g.gaveUp = false ∧
    ∃ k, g.fuelled (cells k) = false ∧ (g.placeFuel cells).planets = mark g.planets (cells k) plFuel := by
  unfold Galaxy.placeFuel at h ⊢
  dsimp only at h ⊢
  rw [Bool.or_eq_false_iff] at h
  obtain ⟨hbefore, hdrawn⟩ := h
  have hdraw := drawFree_of_not_gaveUp hdrawn
  obtain ⟨hfree, hsame⟩ := drawFree_spec (f := Galaxy.planets) (fun _ => rfl) hdraw
  rw [(drawFree_spec (f := Galaxy.gaveUp) (fun _ => rfl) hdraw).2] at hbefore
  exact ⟨hbefore, _, hfree, congrArg (fun p => mark p _ plFuel) hsame⟩

theorem placeFuels_spec (h : (g.placeFuels cells).gaveUp = false) : g.gaveUp = false ∧
    ∃ k k', k ≠ k' ∧ (g.placeFuels cells).planets = mark (mark g.planets (cells k) plFuel) (cells k') plFuel := by
  obtain ⟨hfirst, k', hfree', hmark'⟩ := placeFuel_spec h
  obtain ⟨hbefore, k, -, hmark⟩ := placeFuel_spec hfirst
  exact ⟨hbefore, k, k', ne_of_not_fuelled hmark hfree', by rw [← hmark]; exact hmark'⟩

theorem placeFuelsInl_spec (h : g.placeFuelsInl turns cells = some g') :
    ∃ k k', k ≠ k' ∧ g'.planets = mark (mark g.planets (cells k) plFuel) (cells k') plFuel := by
  obtain ⟨g₁, h₁, h₂⟩ := Option.bind_eq_some_iff.1 h
  obtain ⟨k, -, hmark⟩ := placeFuelInl_spec h₁
  obtain ⟨k', hfree', hmark'⟩ := placeFuelInl_spec h₂
  exact ⟨k, k', ne_of_not_fuelled hmark hfree', by rw [← hmark, hmark']⟩

end Place

/-! ### A home system -/

/-- What is placed on the front, by the coin and in a league. -/
theorem placeFront_spec {nearby : Fin 2 → Fin maxPlanets} {other : Fin 3 → Fin maxPlanets} {g : Galaxy}
    (h : (placeFront nearby other g).gaveUp = false) : g.gaveUp = false ∧ ∃ j r k k', k ≠ k' ∧
      (placeFront nearby other g).planets = marked g.planets
        [(nearby j, plAgri), (other r, plRepair), (other k, plFuel), (other k', plFuel)] := by
  obtain ⟨hbefore, k, k', hne, hmarks⟩ := placeFuels_spec h
  exact ⟨hbefore, _, _, k, k', hne, hmarks⟩

theorem placeFrontInl_spec {turns : Nat} {nearby : Fin 2 → Fin maxPlanets} {other : Fin 3 → Fin maxPlanets} {g g' : Galaxy}
    (h : placeFrontInl turns nearby other g = some g') : ∃ j r k k', k ≠ k' ∧
      g'.planets = marked g.planets
        [(nearby j, plAgri), (nearby j.rev, plFuel), (other r, plRepair), (other k, plFuel), (other k', plFuel)] := by
  obtain ⟨k, k', hne, hmarks⟩ := placeFuelsInl_spec h
  exact ⟨_, _, k, k', hne, hmarks⟩

/-- The coin as a truth value. -/
def heads (which : Fin 2) : Bool := decide (which.val ≠ 0)

theorem byCoin_eq {β : Type} (front : (Fin 2 → Fin maxPlanets) → (Fin 3 → Fin maxPlanets) → Galaxy → β) (i : Fin 4)
    (which : Fin 2) (g : Galaxy) : byCoin front i which g =
      front (fun j => frontPlanets i (near (heads which) j)) (fun k => frontPlanets i (far (heads which) k)) g := by
  unfold byCoin heads
  split
  · next h =>
    rw [decide_eq_true h]
    rfl
  · next h =>
    rw [decide_eq_false h]
    rfl

theorem planets_place {n : Nat} (cells : Fin (n + 1) → Fin maxPlanets) (w : Word) (g : Galaxy) :
    (g.place cells w).planets = mark g.planets (cells (g.draw n).1) w := rfl

theorem placeResources_spec {i : Fin 4} {g : Galaxy} (h : (placeResources i g).gaveUp = false) :
    g.gaveUp = false ∧ ∃ d : Deal, (placeResources i g).planets = marked g.planets (d.marks false i) := by
  unfold placeResources at h ⊢
  dsimp only at h ⊢
  rw [byCoin_eq] at h ⊢
  obtain ⟨hrepair, c, c', hcore, hmarks⟩ := placeFuels_spec h
  obtain ⟨hbefore, j, r, k, k', hne, hfront⟩ := placeFront_spec hrepair
  rw [hmarks, planets_place, hfront]
  exact ⟨hbefore, ⟨_, _, j, r, k, k', hne, _, c, c', hcore⟩, rfl⟩

theorem placeResourcesInl_spec {turns : Nat} {i : Fin 4} {g g' : Galaxy} (h : placeResourcesInl turns i g = some g') :
    ∃ d : Deal, g'.planets = marked g.planets (d.marks true i) := by
  obtain ⟨g₁, hfront, hcore⟩ := Option.bind_eq_some_iff.1 h
  rw [byCoin_eq] at hfront
  obtain ⟨j, r, k, k', hne, hmarks⟩ := placeFrontInl_spec hfront
  obtain ⟨c, c', hne', hmarks'⟩ := placeFuelsInl_spec hcore
  rw [planets_place, hmarks] at hmarks'
  exact ⟨⟨_, _, j, r, k, k', hne, _, c, c', hne'⟩, hmarks'⟩

/-! ### All home systems -/

/-- The systems of a list are dealt resources, one after the other. -/
inductive Deals (league : Bool) : List (Fin 4) → Planets → Planets → Prop
  | nil (p : Planets) : Deals league [] p p
  | cons {i : Fin 4} {l : List (Fin 4)} {p p' : Planets} (d : Deal)
      (h : Deals league l (marked p (d.marks league i)) p') : Deals league (i :: l) p p'

theorem deals_placeResources {l : List (Fin 4)} : ∀ {g : Galaxy},
    (l.foldl (fun g i => placeResources i g) g).gaveUp = false →
      g.gaveUp = false ∧ Deals false l g.planets (l.foldl (fun g i => placeResources i g) g).planets := by
  induction l with
  | nil => exact fun h => ⟨h, .nil _⟩
  | cons i l ih =>
    intro g h
    obtain ⟨hgave, hdeals⟩ := ih h
    obtain ⟨hbefore, d, hd⟩ := placeResources_spec hgave
    rw [hd] at hdeals
    exact ⟨hbefore, .cons d hdeals⟩

/-- The loop over the teams deals to one system after the other. -/
theorem deals_placeResourcesInl {turns : Nat} {l : List (Fin 4)} : ∀ {g g' : Galaxy},
    l.foldlM (fun g i => placeResourcesInl turns i g) g = some g' → Deals true l g.planets g'.planets := by
  induction l with
  | nil =>
    rintro g _ ⟨⟩
    exact .nil _
  | cons i l ih =>
    intro g g' h
    rw [List.foldlM_cons] at h
    obtain ⟨g₁, hfirst, hrest⟩ := Option.bind_eq_some_iff.1 h
    obtain ⟨d, hd⟩ := placeResourcesInl_spec hfirst
    have hdeals := ih hrest
    rw [hd] at hdeals
    exact .cons d hdeals

/-- A deal marks planets of its own system only. -/
theorem Deal.marks_mem {league : Bool} {i : Fin 4} {d : Deal} {m : Fin maxPlanets × Word} (hm : m ∈ d.marks league i) :
    m.1 ∈ system i := by
  rcases mem_marks.1 hm with rfl | ⟨x, -, rfl⟩ | ⟨x, -, rfl⟩
  · exact core_mem i _
  · exact front_mem i _
  · exact core_mem i _

theorem Deal.marks_resources {league : Bool} {i : Fin 4} {d : Deal} {m : Fin maxPlanets × Word}
    (hm : m ∈ d.marks league i) : m.2 &&& ~~~resources = 0 := by
  have hflags : plAgri &&& ~~~resources = 0 ∧ plRepair &&& ~~~resources = 0 ∧ plFuel &&& ~~~resources = 0 := by decide
  have hfront : ∀ x ∈ d.frontMarks league, x.2 &&& ~~~resources = 0 := by
    cases league <;> simp [Deal.frontMarks, hflags]
  have hcore : ∀ x ∈ d.coreMarks, x.2 &&& ~~~resources = 0 := by simp [Deal.coreMarks, hflags]
  rcases mem_marks.1 hm with rfl | ⟨x, hx, rfl⟩ | ⟨x, hx, rfl⟩
  · exact hflags.1
  · exact hfront x hx
  · exact hcore x hx

theorem system_disjoint {i j : Fin 4} {l : Fin maxPlanets} (hi : l ∈ system i) (hj : l ∈ system j) : i = j :=
  Fin.ext (((mem_system i l).1 hi).symm.trans ((mem_system j l).1 hj))

namespace Deals

variable {league : Bool} {l : List (Fin 4)} {p p' : Planets}

theorem of_notMem (h : Deals league l p p') {x : Fin maxPlanets} (hx : ∀ i ∈ l, x ∉ system i) : p' x = p x := by
  induction h with
  | nil => rfl
  | cons d _ ih =>
    rw [ih fun i hi => hx i (List.mem_cons_of_mem _ hi)]
    refine marked_of_ne fun m hm heq => hx _ List.mem_cons_self ?_
    rw [← heq]
    exact Deal.marks_mem hm

/-- Each system has got one deal. -/
theorem of_mem (h : Deals league l p p') (hl : l.Nodup) {i : Fin 4} (hi : i ∈ l) :
    ∃ d : Deal, ∀ x ∈ system i, (p' x).flags = (marked p (d.marks league i) x).flags := by
  induction h with
  | nil => cases hi
  | @cons j l p p' d h ih =>
    obtain ⟨hj, hl⟩ := List.nodup_cons.1 hl
    rcases List.mem_cons.1 hi with rfl | hi
    -- the deals that follow leave this system alone
    · refine ⟨d, fun x hx => ?_⟩
      rw [h.of_notMem fun k hk hxk => hj (system_disjoint hx hxk ▸ hk)]
    · obtain ⟨d', hd'⟩ := ih hl hi
      -- and so does the deal before
      refine ⟨d', fun x hx => (hd' x hx).trans (marked_congr ?_)⟩
      have hne : ∀ m ∈ d.marks league j, m.1 ≠ x := by
        rintro m hm rfl
        exact hj (system_disjoint (Deal.marks_mem hm) hx ▸ hi)
      rw [marked_of_ne hne]

theorem flags_and (h : Deals league l p p') (x : Fin maxPlanets) :
    (p' x).flags &&& ~~~resources = (p x).flags &&& ~~~resources := by
  induction h with
  | nil => rfl
  | cons d _ ih => exact ih.trans (marked_and (fun _ => Deal.marks_resources) x)

theorem info (h : Deals league l p p') (x : Fin maxPlanets) : (p' x).info = (p x).info := by
  induction h with
  | nil => rfl
  | cons d _ ih => exact ih.trans (marked_info _ _ x)

/-- From the flags that the galaxy was made with. -/
theorem allFair (h : Deals league (List.finRange 4) p p') (hp : ∀ x, (p x).flags = (plVirgin x).flags) :
    AllFair league p' := by
  constructor
  · intro i
    obtain ⟨d, hd⟩ := h.of_mem (List.nodup_finRange 4) (List.mem_finRange i)
    have hdealt : Dealt league i d p' := fun x hx => (hd x hx).trans (marked_congr (hp x))
    exact hdealt.fair
  · intro x
    rw [h.flags_and, hp]

end Deals

/-! ## The loops without a limit -/

/-- Every remainder by 12 comes up again and again. -/
def Recurs (random : Nat → Nat) : Prop := ∀ r < 12, ∀ n, ∃ m, random (n + m) % 12 = r

theorem recurs_tail (random : Nat → Nat) : Recurs (fun k => random (k + 1)) ↔ Recurs random := by
  constructor
  · intro h r hr n
    obtain ⟨m, hm⟩ := h r hr n
    exact ⟨m + 1, hm⟩
  · intro h r hr n
    obtain ⟨m, hm⟩ := h r hr (n + 1)
    exact ⟨m, by rw [← hm, Nat.add_right_comm]⟩

section Returns

variable {n : Nat} {cells : Fin (n + 1) → Fin maxPlanets} {g g' : Galaxy} {turns turns' : Nat}

theorem draw_val (g : Galaxy) : (g.draw n).1.val = g.random 0 % (n + 1) := rfl

theorem random_iterate (m : Nat) : ∀ g : Galaxy,
    ((fun g => (Galaxy.draw n g).2)^[m] g).random = fun k => g.random (k + m) := by
  induction m with
  | zero => exact fun _ => rfl
  | succ m ih =>
    intro g
    rw [Function.iterate_succ_apply, ih]
    rfl

/-- Each planet is drawn at some time. -/
theorem exists_draw (hr : Recurs g.random) (hn : n + 1 ∣ 12) (k : Fin (n + 1)) :
    ∃ m, (Galaxy.draw n ((fun g => (Galaxy.draw n g).2)^[m] g)).1 = k := by
  have hle := Nat.le_of_dvd (by decide) hn
  obtain ⟨m, hm⟩ := hr k.val (by omega) 0
  refine ⟨m, Fin.ext ?_⟩
  rw [draw_val, random_iterate, ← Nat.mod_mod_of_dvd _ hn, hm, Nat.mod_eq_of_lt k.isLt]

theorem placeFuelInl_recurs (h : g.placeFuelInl turns cells = some g') : Recurs g'.random ↔ Recurs g.random := by
  obtain ⟨⟨k, g''⟩, hdraw, rfl⟩ := Option.map_eq_some_iff.1 h
  exact iff_of_eq (drawFree_spec (f := fun g => Recurs g.random) (fun g => propext (recurs_tail g.random)) hdraw).2

theorem placeFuelInl_mono (h : g.placeFuelInl turns cells = some g') (hle : turns ≤ turns') :
    g.placeFuelInl turns' cells = some g' := by
  obtain ⟨r, hdraw, hr⟩ := Option.map_eq_some_iff.1 h
  exact Option.map_eq_some_iff.2 ⟨r, drawFree_mono hdraw hle, hr⟩

theorem exists_placeFuelInl (hr : Recurs g.random) (hn : n + 1 ∣ 12) {k : Fin (n + 1)} (hfree : g.fuelled (cells k) = false) :
    ∃ turns g', g.placeFuelInl turns cells = some g' := by
  obtain ⟨m, hm⟩ := exists_draw hr hn k
  rw [← hm] at hfree
  obtain ⟨turns, r, hdraw⟩ := @exists_drawFree _ _ (Galaxy.draw n) (fun k => g.fuelled (cells k)) m g hfree
  exact ⟨turns, _, Option.map_eq_some_iff.2 ⟨r, hdraw, rfl⟩⟩

theorem placeFuelsInl_recurs (h : g.placeFuelsInl turns cells = some g') : Recurs g'.random ↔ Recurs g.random := by
  obtain ⟨g₁, h₁, h₂⟩ := Option.bind_eq_some_iff.1 h
  exact (placeFuelInl_recurs h₂).trans (placeFuelInl_recurs h₁)

theorem placeFuelsInl_mono (h : g.placeFuelsInl turns cells = some g') (hle : turns ≤ turns') :
    g.placeFuelsInl turns' cells = some g' := by
  obtain ⟨g₁, h₁, h₂⟩ := Option.bind_eq_some_iff.1 h
  exact Option.bind_eq_some_iff.2 ⟨g₁, placeFuelInl_mono h₁ hle, placeFuelInl_mono h₂ hle⟩

/-- There is room for two. -/
theorem exists_placeFuelsInl (hr : Recurs g.random) (hn : n + 1 ∣ 12) (hcells : Function.Injective cells) {a b : Fin (n + 1)}
    (hab : a ≠ b) (hfree : ∀ k, g.fuelled (cells k) = false) : ∃ turns g', g.placeFuelsInl turns cells = some g' := by
  obtain ⟨turns, g₁, h₁⟩ := exists_placeFuelInl hr hn (hfree a)
  obtain ⟨k, -, hmark⟩ := placeFuelInl_spec h₁
  -- the first FUEL has taken one of the two at most
  obtain ⟨c, hc⟩ : ∃ c, k ≠ c := by
    by_cases hk : k = a
    · exact ⟨b, hk ▸ hab⟩
    · exact ⟨a, hk⟩
  have hfree' : g₁.fuelled (cells c) = false := by
    unfold Galaxy.fuelled
    rw [hmark, mark_of_ne (hcells.ne hc)]
    exact hfree c
  obtain ⟨turns', g', h₂⟩ := exists_placeFuelInl ((placeFuelInl_recurs h₁).2 hr) hn hfree'
  exact ⟨max turns turns', g', Option.bind_eq_some_iff.2
    ⟨g₁, placeFuelInl_mono h₁ (le_max_left ..), placeFuelInl_mono h₂ (le_max_right ..)⟩⟩

theorem place_recurs (cells : Fin (n + 1) → Fin maxPlanets) (w : Word) (g : Galaxy) :
    Recurs (g.place cells w).random ↔ Recurs g.random := recurs_tail g.random

theorem fuelled_place {w : Word} (hw : w.has plFuel = false) (cells : Fin (n + 1) → Fin maxPlanets) (g : Galaxy)
    (l : Fin maxPlanets) : (g.place cells w).fuelled l = g.fuelled l := by
  rw [Bool.eq_iff_iff]
  unfold Galaxy.fuelled
  rw [planets_place, has_mark, hw]
  simp

theorem fuelled_mark {m l : Fin maxPlanets} (h : m ≠ l) (w : Word) (g : Galaxy) : (g.mark m w).fuelled l = g.fuelled l :=
  congrArg (fun p => p.flags.has plFuel) (mark_of_ne h)

section Front

variable {nearby : Fin 2 → Fin maxPlanets} {other : Fin 3 → Fin maxPlanets}

/-- What comes before the loops on the front. -/
def beforeLoops (nearby : Fin 2 → Fin maxPlanets) (other : Fin 3 → Fin maxPlanets) (g : Galaxy) : Galaxy :=
  (((g.draw 1).2.mark (nearby (g.draw 1).1) plAgri).mark (nearby (g.draw 1).1.rev) plFuel).place other plRepair

theorem beforeLoops_recurs : Recurs (beforeLoops nearby other g).random ↔ Recurs g.random :=
  (place_recurs ..).trans (recurs_tail g.random)

theorem placeFrontInl_recurs (h : placeFrontInl turns nearby other g = some g') : Recurs g'.random ↔ Recurs g.random :=
  (placeFuelsInl_recurs h).trans beforeLoops_recurs

theorem placeFrontInl_mono (h : placeFrontInl turns nearby other g = some g') (hle : turns ≤ turns') :
    placeFrontInl turns' nearby other g = some g' := placeFuelsInl_mono h hle

theorem exists_placeFrontInl (hr : Recurs g.random) (hother : Function.Injective other)
    (hne : ∀ j k, nearby j ≠ other k) (hfree : ∀ k, g.fuelled (other k) = false) :
    ∃ turns g', placeFrontInl turns nearby other g = some g' := by
  have hzero : (0 : Fin 3) ≠ 1 := by decide
  refine exists_placeFuelsInl (beforeLoops_recurs.2 hr) (by decide) hother hzero fun k => ?_
  rw [fuelled_place has_resources.2.2.2.2.2.1, fuelled_mark (hne _ k), fuelled_mark (hne _ k)]
  exact hfree k

end Front

theorem placeResourcesInl_recurs {i : Fin 4} (h : placeResourcesInl turns i g = some g') :
    Recurs g'.random ↔ Recurs g.random := by
  obtain ⟨g₁, hfront, hcore⟩ := Option.bind_eq_some_iff.1 h
  rw [byCoin_eq] at hfront
  have hbefore : Recurs g₁.random ↔ Recurs (g.place (corePlanets i) plAgri).random :=
    (placeFrontInl_recurs hfront).trans (recurs_tail (g.place (corePlanets i) plAgri).random)
  exact (placeFuelsInl_recurs hcore).trans ((place_recurs ..).trans (hbefore.trans (place_recurs ..)))

theorem placeResourcesInl_mono {i : Fin 4} (h : placeResourcesInl turns i g = some g') (hle : turns ≤ turns') :
    placeResourcesInl turns' i g = some g' := by
  obtain ⟨g₁, hfront, hcore⟩ := Option.bind_eq_some_iff.1 h
  refine Option.bind_eq_some_iff.2 ⟨g₁, ?_, placeFuelsInl_mono hcore hle⟩
  rw [byCoin_eq] at hfront ⊢
  exact placeFrontInl_mono hfront hle

/-- Once the coin is tossed, the loops come to an end if the core and the front have no FUEL. -/
theorem exists_afterCoin (i : Fin 4) (which : Fin 2) (hr : Recurs g.random)
    (hfront : ∀ k, g.fuelled (frontPlanets i k) = false) (hcore : ∀ k, g.fuelled (corePlanets i k) = false) :
    ∃ turns g₁ g', byCoin (placeFrontInl turns) i which g = some g₁ ∧
      (g₁.place (corePlanets i) plRepair).placeFuelsInl turns (corePlanets i) = some g' := by
  obtain ⟨turns, g₁, h₁⟩ := exists_placeFrontInl hr ((frontPlanets_injective i).comp (far_injective (heads which)))
    (fun j k => (frontPlanets_injective i).ne (near_ne_far (heads which) j k)) fun k => hfront _
  obtain ⟨j, r, k, k', -, hmarks⟩ := placeFrontInl_spec h₁
  have hclear (c : Fin 4) : (g₁.place (corePlanets i) plRepair).fuelled (corePlanets i c) = false := by
    rw [fuelled_place has_resources.2.2.2.2.2.1, ← hcore c]
    unfold Galaxy.fuelled
    rw [hmarks, marked_of_ne]
    simp [(core_ne_front i c _).symm]
  have hzero : (0 : Fin 4) ≠ 1 := by decide
  have hr₁ := (place_recurs (corePlanets i) plRepair g₁).2 ((placeFrontInl_recurs h₁).2 hr)
  obtain ⟨turns', g', h₂⟩ := exists_placeFuelsInl hr₁ (by decide) (corePlanets_injective i) hzero hclear
  refine ⟨max turns turns', g₁, g', ?_, placeFuelsInl_mono h₂ (le_max_right ..)⟩
  rw [byCoin_eq]
  exact placeFrontInl_mono h₁ (le_max_left ..)

/-- They do for a home system as it was made. -/
theorem exists_placeResourcesInl {i : Fin 4} (hr : Recurs g.random)
    (hmade : ∀ l ∈ system i, (g.planets l).flags = (plVirgin l).flags) :
    ∃ turns g', placeResourcesInl turns i g = some g' := by
  have hplace (l : Fin maxPlanets) : (g.place (corePlanets i) plAgri).fuelled l = g.fuelled l :=
    fuelled_place has_resources.2.2.1 ..
  have hfront (k : Fin 5) : g.fuelled (frontPlanets i k) = false := by
    unfold Galaxy.fuelled
    rw [hmade _ (front_mem i k), has_false (virgin_front i k) resources_and.2.2]
  have hcore (k : Fin 4) : g.fuelled (corePlanets i k) = false := by
    unfold Galaxy.fuelled
    rw [hmade _ (core_mem i k), has_false (virgin_core i k) resources_and.2.2]
  obtain ⟨turns, g₁, g', h₁, h₂⟩ := @exists_afterCoin ((g.place (corePlanets i) plAgri).draw 1).2 i
    ((g.place (corePlanets i) plAgri).draw 1).1
    ((recurs_tail (g.place (corePlanets i) plAgri).random).2 ((place_recurs ..).2 hr))
    (fun k => (hplace _).trans (hfront k)) fun k => (hplace _).trans (hcore k)
  exact ⟨turns, g', Option.bind_eq_some_iff.2 ⟨g₁, h₁, h₂⟩⟩

theorem foldlM_mono {l : List (Fin 4)} (hle : turns ≤ turns') : ∀ {g g' : Galaxy},
    l.foldlM (fun g i => placeResourcesInl turns i g) g = some g' →
      l.foldlM (fun g i => placeResourcesInl turns' i g) g = some g' := by
  induction l with
  | nil => exact fun h => h
  | cons i l ih =>
    intro g g' h
    obtain ⟨g₁, h₁, h₂⟩ := Option.bind_eq_some_iff.1 h
    exact Option.bind_eq_some_iff.2 ⟨g₁, placeResourcesInl_mono h₁ hle, ih h₂⟩

/-- Random numbers that recur are enough for every system in turn. -/
theorem exists_foldlM {l : List (Fin 4)} (hl : l.Nodup) : ∀ {g : Galaxy}, Recurs g.random →
    (∀ i ∈ l, ∀ x ∈ system i, (g.planets x).flags = (plVirgin x).flags) →
      ∃ turns g', l.foldlM (fun g i => placeResourcesInl turns i g) g = some g' := by
  induction l with
  | nil => exact fun {g} _ _ => ⟨0, g, rfl⟩
  | cons i l ih =>
    intro g hr hmade
    obtain ⟨hi, hl⟩ := List.nodup_cons.1 hl
    obtain ⟨turns, g₁, h₁⟩ := exists_placeResourcesInl hr (hmade i List.mem_cons_self)
    obtain ⟨d, hd⟩ := placeResourcesInl_spec h₁
    -- the systems still to come are as they were made
    have hmade₁ : ∀ j ∈ l, ∀ x ∈ system j, (g₁.planets x).flags = (plVirgin x).flags := by
      intro j hj x hx
      rw [hd, marked_of_ne, hmade j (List.mem_cons_of_mem i hj) x hx]
      rintro m hm rfl
      exact hi (system_disjoint (Deal.marks_mem hm) hx ▸ hj)
    obtain ⟨turns', g', h₂⟩ := ih hl ((placeResourcesInl_recurs h₁).2 hr) hmade₁
    exact ⟨max turns turns', g', Option.bind_eq_some_iff.2
      ⟨g₁, placeResourcesInl_mono h₁ (le_max_left ..), foldlM_mono (le_max_right ..) h₂⟩⟩

/-- `pl_reset_inl(1)` comes to an end if every remainder comes up again and again. -/
theorem plResetInl_returns (hr : Recurs g.random) : ∃ turns g', plResetInl turns g = some g' :=
  exists_foldlM (List.nodup_finRange 4) hr fun _ _ _ _ => rfl

end Returns

/-! ## A fair galaxy -/

/-- The robot of a league leaves such a galaxy as it is, so that the players find it fair. -/
theorem robot_allFair {turns : Nat} {g g' : Galaxy} (h : plResetInl turns g = some g') (r : Inl.Robot) :
    AllFair true (Inl.plResetInl r (some g'.planets)).mem.planets := by
  have hdeals := deals_placeResourcesInl h
  have hplanets : (Inl.plResetInl r (some g'.planets)).mem.planets = g'.planets := by
    funext l
    have hinfo : (g'.planets l).info = allTeam := hdeals.info l
    unfold Inl.plResetInl
    dsimp only
    rw [← hinfo]
  rw [hplanets]
  exact hdeals.allFair fun _ => rfl

/-- Whatever comes of the coins and dice, the resources of the home systems are fair, unless a placement loop gives up;
those of a league are as soon as the loops have come to an end. -/
theorem resources_are_fair (topArmies : Int) (turns : Nat) (g : Galaxy) :
    ((plReset false topArmies g).gaveUp = false → AllFair false (plReset false topArmies g).planets) ∧
    ∀ g', plResetInl turns g = some g' → AllFair true g'.planets := by
  constructor
  · intro h
    exact (deals_placeResources h).2.allFair fun _ => rfl
  · intro g' h
    exact (deals_placeResourcesInl h).allFair fun _ => rfl

/-- Outcomes that count up. -/
def counting : Galaxy where
  planets := plVirgin
  random := id
  gaveUp := false

theorem resources_of_counting : AllFair false (plReset false 30 counting).planets ∧
    ∃ g', plResetInl 3 counting = some g' ∧ AllFair true g'.planets := by
  have hends : (plResetInl 3 counting).isSome = true := by decide +kernel
  obtain ⟨g', hg'⟩ := Option.isSome_iff_exists.1 hends
  refine ⟨(resources_are_fair 30 3 counting).1 ?_, g', hg', (resources_are_fair 30 3 counting).2 g' hg'⟩
  decide +kernel

end Netrek.Resources
