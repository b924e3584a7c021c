/-
`find_slot_by_host` and `find_slot_by_ip` of `ntserv/util.c`: the next slot whose player came from a host. The index
starts at the slot it is given, but the pointer at the first slot.
-/
import NetrekServer.Lib.Search
import NetrekServer.Struct

namespace Netrek.Host

open Netrek.Lib

/-! ## Clients -/

/-- What `struct player` says of a client. -/
structure Client where
  status : PStatus
  flags : Word
  fullHostname : String
  ip : String

abbrev Clients := Slot → Client

/-- The slot is in use, not by a robot, and its own text is this one. -/
def Client.Is (c : Client) (own : Client → String) (text : String) : Prop :=
  c.status ≠ .pfree ∧ c.flags.has pfRobot = false ∧ text = own c

instance (c : Client) (own : Client → String) (text : String) : Decidable (c.Is own text) :=
  inferInstanceAs (Decidable (_ ∧ _))

/-- So it is in the slot `p` of the table. -/
def Matches (players : Clients) (own : Client → String) (text : String) (p : Nat) : Prop :=
  ∃ h : p < maxPlayer, (players ⟨p, h⟩).Is own text

instance (players : Clients) (own : Client → String) (text : String) : DecidablePred (Matches players own text) :=
  fun p => inferInstanceAs (Decidable (∃ h : p < maxPlayer, (players ⟨p, h⟩).Is own text))

/-! ## The search -/

/-- The loop from `j` on, with the pointer at the start of `players`. -/
def findSlot (own : Client → String) (players : Clients) (text : String) (j : Nat) : Int :=
  match searchFrom (Matches players own text) maxPlayer j with
  | some i => i
  | none => -1

/-- `find_slot_by_host`. -/
def findSlotByHost (players : Clients) (host : String) (j : Nat) : Int := findSlot Client.fullHostname players host j

/-- `find_slot_by_ip`. -/
def findSlotByIp (players : Clients) (ip : String) (j : Nat) : Int := findSlot Client.ip players ip j

/-! ## Every match -/

/-- The least match from `j` on, or -1. -/
def Finds (M : Nat → Prop) (j : Nat) (r : Int) : Prop :=
  (∃ i : Nat, r = i ∧ IsLeast {k | j ≤ k ∧ M k} i) ∨ r = -1 ∧ ∀ k, j ≤ k → ¬ M k

/-- The results of calls from `j` on, each with the last result plus one, until one is -1. -/
inductive Calls (find : Nat → Int) : Nat → List Nat → Prop
  | stop {j : Nat} (h : find j = -1) : Calls find j []
  | next {j i : Nat} {l : List Nat} (h : find j = i) (hl : Calls find (i + 1) l) : Calls find j (i :: l)

/-- The calls from the first slot on give every match exactly once. -/
def Enumerates (M : Nat → Prop) (find : Nat → Int) : Prop := ∃ l, Calls find 0 l ∧ l.Nodup ∧ ∀ i, i ∈ l ↔ M i

section

variable {players : Clients} {own : Client → String} {text : String}

theorem lt_of_matches {p : Nat} (h : Matches players own text p) : p < maxPlayer := h.1

theorem findSlot_some {j i : Nat} : findSlot own players text j = i ↔
    searchFrom (Matches players own text) maxPlayer j = some i := by
  unfold findSlot
  cases searchFrom (Matches players own text) maxPlayer j with
  | none => simp
  | some k => simp

theorem findSlot_none {j : Nat} : findSlot own players text j = -1 ↔
    searchFrom (Matches players own text) maxPlayer j = none := by
  unfold findSlot
  cases searchFrom (Matches players own text) maxPlayer j with
  | none => simp
  | some k => simp

/-- The search finds the first match from `j` on exactly if the player it looks at keeps step with the slot it counts.
-/
theorem finds_iff (j : Nat) : Finds (Matches players own text) j (findSlot own players text j) ↔
    InStep (Matches players own text) maxPlayer j := by
  rw [← searchFrom_first_iff]
  have hset : {k | j ≤ k ∧ k < maxPlayer ∧ Matches players own text k} = {k | j ≤ k ∧ Matches players own text k} := by
    ext k
    simp only [Set.mem_ofPred_eq, and_congr_right_iff, and_iff_right_iff_imp]
    exact fun _ => lt_of_matches
  constructor
  · rintro (⟨i, hi, hleast⟩ | ⟨hi, hno⟩)
    · rw [findSlot_some.1 hi]
      exact .found (hset ▸ hleast)
    · rw [findSlot_none.1 hi]
      exact .missing fun k hk _ => hno k hk
  · intro h
    cases hs : searchFrom (Matches players own text) maxPlayer j with
    | none =>
      rw [hs] at h
      cases h with
      | missing hno => exact .inr ⟨findSlot_none.2 hs, fun k hk hm => hno k hk (lt_of_matches hm) hm⟩
    | some i =>
      rw [hs] at h
      cases h with
      | found hleast => exact .inl ⟨i, findSlot_some.2 hs, hset ▸ hleast⟩

theorem calls_iff {j : Nat} {l : List Nat} : Calls (findSlot own players text) j l ↔
    Results (searchFrom (Matches players own text) maxPlayer) j l := by
  constructor
  · intro h
    induction h with
    | stop h => exact .stop (findSlot_none.1 h)
    | next h _ ih => exact .next (findSlot_some.1 h) ih
  · intro h
    induction h with
    | stop h => exact .stop (findSlot_none.2 h)
    | next h _ ih => exact .next (findSlot_some.2 h) ih

theorem enumerates_iff : Enumerates (Matches players own text) (findSlot own players text) ↔
    Periodic (Matches players own text) maxPlayer := by
  rw [← findsAll_iff]
  have hmem (i : Nat) : i < maxPlayer ∧ Matches players own text i ↔ Matches players own text i :=
    and_iff_right_of_imp lt_of_matches
  unfold Enumerates FindsAll
  simp only [calls_iff, hmem]

end

/-- A call gives the next match if and only if the players from the first slot on match as those from its own start on
do, up to the first match; calls one after the other give every match if and only if the matching slots, counted from
1, are the multiples of a number. -/
theorem finds_every_match_iff (players : Clients) (text : String) :
    (∀ j, Finds (Matches players Client.fullHostname text) j (findSlotByHost players text j) ↔
      InStep (Matches players Client.fullHostname text) maxPlayer j) ∧
    (Enumerates (Matches players Client.fullHostname text) (findSlotByHost players text) ↔
      Periodic (Matches players Client.fullHostname text) maxPlayer) ∧
    (∀ j, Finds (Matches players Client.ip text) j (findSlotByIp players text j) ↔
      InStep (Matches players Client.ip text) maxPlayer j) ∧
    (Enumerates (Matches players Client.ip text) (findSlotByIp players text) ↔
      Periodic (Matches players Client.ip text) maxPlayer) :=
  ⟨finds_iff, enumerates_iff, finds_iff, enumerates_iff⟩

/-- A player from one host, in the second slot. -/
def onePlayer : Clients := fun i =>
  { status := if i = 1 then .palive else .pfree, flags := 0, fullHostname := "a.example", ip := "10.0.0.1" }

/-- From the second slot on, the third is given, which is free. -/
theorem second_slot_missed :
    findSlotByHost onePlayer "a.example" 1 = 2 ∧ ¬ Finds (Matches onePlayer Client.fullHostname "a.example") 1 2 := by
  constructor
  · decide
  · rintro (⟨i, hi, hleast⟩ | ⟨hi, -⟩)
    · have htwo : i = 2 := by omega
      subst htwo
      have hfree : ¬ Matches onePlayer Client.fullHostname "a.example" 2 := by decide
      exact hfree hleast.1.2
    · omega

end Netrek.Host
