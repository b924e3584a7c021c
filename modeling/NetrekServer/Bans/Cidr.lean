/-
`flag_test_cidr` of `ntserv/ip.c`, which `ip_deny`, `ip_mute` and the other lists of addresses use: the
names in a directory are addresses, or addresses with the length of a prefix.

The prefix is selected by a shift of the word that `inet_addr` returns. On a little-endian host that word
holds the first octet in its lowest bits: a shift keeps whole octets from the first one on, but of an octet
that it splits it keeps the low bits, where a prefix ends with the high ones.
-/
import Mathlib.Tactic.IntervalCases
import NetrekServer.Inet

namespace Netrek.Cidr

open Inet
open Text (atoi)

/-- The name of an entry of a directory, or an address as it is looked for. -/
abbrev Name := List Char

/-! ## `flag_test_cidr` -/

/-- A token of `strtok`, behind the delimiters in front of it, and the text behind the token. -/
def token (text : List Char) : List Char × List Char :=
  let text := text.dropWhile (· == '-')
  (text.takeWhile (· != '-'), text.dropWhile (· != '-'))

/-- The address and the mask of an entry, if it is one of a prefix. `strtok` has cut off the name
behind its first token; what is in front of that token is still there. -/
def readName (name : Name) : Option (Word × Nat) :=
  let (str, rest) := token name
  if str = [] then none
  else
    let (mask, _) := token rest
    if mask = [] then none
    else
      let entry := inetAddr (name.takeWhile (· == '-') ++ str)
      if entry = inaddrNone then none
      else if atoi mask < 0 ∨ 32 < atoi mask then none
      else some (entry, (atoi mask).toNat)

/-- A shift by the width of the word. -/
structure WideShift where
  deriving DecidableEq

/-- Whether an entry ends the search with a hit. -/
def hits (ip : Name) (name : Name) : Except WideShift Bool :=
  if name = ip then .ok true
  else match readName name with
    | none => .ok false
    | some (entry, mask) =>
      if mask = 0 then .error {}
      else .ok (inetAddr ip <<< (32 - mask) == entry <<< (32 - mask))

/-- The loop over the entries. -/
def search (ip : Name) : List Name → Except WideShift Bool
  | [] => .ok false
  | name :: names => do
    if ← hits ip name then .ok true else search ip names

/-- `flag_test_cidr`. -/
def flagTestCidr (dir : Option (List Name)) (ip : Name) : Except WideShift Bool :=
  match dir with
  | none => .ok false
  | some names => search ip names

/-! ## Prefixes -/

/-- The name of a prefix: an address, a hyphen, and its length. -/
def prefixName (a : Quad) (n : Nat) : Name := a.text ++ '-' :: dec n

/-- The first `n` bits of the two addresses are the same. -/
def SamePrefix (n : Nat) (a ip : Quad) : Prop := ∀ j < n, a.net.getMsbD j = ip.net.getMsbD j

/-- The lowest `n` bits of the two words are the same: the first octets, and the low bits of the next one. -/
def SameLow (n : Nat) (a ip : Word) : Prop := ∀ i < n, a.getLsbD i = ip.getLsbD i

/-- What an entry of a list of addresses is to mean. -/
def Names (ip : Quad) (name : Name) : Prop := name = ip.text ∨ ∃ a n, n ≤ 32 ∧ name = prefixName a n ∧ SamePrefix n a ip

/-- The shift compares the lowest bits. -/
theorem shift_eq_iff {n : Nat} (hn : n ≤ 32) (x y : Word) : x <<< (32 - n) = y <<< (32 - n) ↔ SameLow n x y := by
  constructor
  · intro h i hi
    have hbit := congrArg (BitVec.getLsbD · (i + (32 - n))) h
    simp only [BitVec.getLsbD_shiftLeft] at hbit
    simpa [show i + (32 - n) < 32 by omega] using hbit
  · intro h
    apply BitVec.eq_of_getLsbD_eq
    intro i hi
    simp only [BitVec.getLsbD_shiftLeft]
    by_cases hlow : i < 32 - n
    · simp [hlow]
    · rw [h (i - (32 - n)) (by omega)]

/-! ## Names of prefixes -/

theorem atoi_dec {n : Nat} (hn : n ≤ 32) : atoi (dec n) = n := by
  have h : ∀ i : Fin 33, atoi (dec i) = (i.val : Int) := by decide +kernel
  exact h ⟨n, by omega⟩

theorem dec_ne_nil (n : Nat) : dec n ≠ [] := Nat.toDigits_ne_nil

/-- A text without a hyphen is taken as it is. -/
theorem token_of_not_mem {text : List Char} (rest : List Char) (hne : text ≠ []) (h : '-' ∉ text) :
    token (text ++ '-' :: rest) = (text, '-' :: rest) ∧ token text = (text, []) := by
  have hdrop : ∀ l, (text ++ l).dropWhile (· == '-') = text ++ l := by
    intro l
    cases text with
    | nil => exact absurd rfl hne
    | cons c cs =>
      have hc : c ≠ '-' := fun hc => h (hc ▸ List.mem_cons_self)
      simp [hc]
  have hself := hdrop []
  rw [List.append_nil] at hself
  have hall : ∀ c ∈ text, (c != '-') = true := by
    intro c hc
    simp only [bne_iff_ne, ne_eq]
    rintro rfl
    exact h hc
  unfold token
  simp only [hdrop, hself]
  constructor
  · rw [List.takeWhile_append_of_pos hall, List.dropWhile_append_of_pos hall]
    simp
  · rw [List.takeWhile_eq_self_iff.2 hall, List.dropWhile_eq_nil_iff.2 hall]

theorem not_mem_text (q : Quad) : '-' ∉ q.text := by
  intro h
  rcases mem_text h with h | h
  · exact absurd h (by decide)
  · exact absurd h (by decide)

/-- The name of a prefix is read as the prefix, unless it is of the broadcast address. -/
theorem readName_prefixName (a : Quad) {n : Nat} (hn : n ≤ 32) :
    readName (prefixName a n) = if a.word = inaddrNone then none else some (a.word, n) := by
  have hne : a.text ≠ [] := by simp [Quad.text]
  have hname : token (prefixName a n) = (a.text, '-' :: dec n) := (token_of_not_mem (dec n) hne (not_mem_text a)).1
  have hmask : token ('-' :: dec n) = (dec n, []) := (token_of_not_mem [] (dec_ne_nil n) (not_mem_dec rfl)).2
  have hlead : (prefixName a n).takeWhile (· == '-') = [] := by
    unfold prefixName
    cases htext : a.text with
    | nil => exact absurd htext hne
    | cons c cs =>
      have hc : c ≠ '-' := by
        rintro rfl
        exact not_mem_text a (htext ▸ List.mem_cons_self)
      simp [hc]
  unfold readName
  simp only [hname, hmask, hlead, List.nil_append, hne, dec_ne_nil, if_false, inetAddr_text, atoi_dec hn]
  split
  · rfl
  · rw [if_neg (by omega)]
    rfl

/-! ## The search -/

section Search

variable {ip : Quad} {name : Name} {names : List Name}

/-- An entry whose mask is 0 is reached. -/
def Wide (ip : Quad) (name : Name) : Prop := name ≠ ip.text ∧ ∃ a, readName name = some (a, 0)

/-- An entry that is, or is read as a prefix whose lowest bits are, the address. -/
def Hit (ip : Quad) (name : Name) : Prop :=
  name = ip.text ∨ ∃ a n, readName name = some (a, n) ∧ n ≠ 0 ∧ SameLow n a ip.word

theorem mask_le {name : Name} {a : Word} {n : Nat} (h : readName name = some (a, n)) : n ≤ 32 := by
  unfold readName at h
  dsimp only at h
  split_ifs at h
  cases h
  omega

/-- An entry shifts by the width of the word, hits, or does neither. -/
theorem hits_eq (ip : Quad) (name : Name) :
    (Wide ip name ∧ hits ip.text name = .error {}) ∨ (Hit ip name ∧ hits ip.text name = .ok true) ∨
      (¬ Wide ip name ∧ ¬ Hit ip name ∧ hits ip.text name = .ok false) := by
  by_cases hname : name = ip.text
  · exact .inr (.inl ⟨.inl hname, if_pos hname⟩)
  have hunfold : hits ip.text name = match readName name with
      | none => .ok false
      | some (entry, mask) =>
        if mask = 0 then .error {}
        else .ok (ip.word <<< (32 - mask) == entry <<< (32 - mask)) := by
    unfold hits
    rw [if_neg hname, inetAddr_text]
  cases hread : readName name with
  | none =>
    rw [hread] at hunfold
    exact .inr (.inr ⟨by simp [Wide, hread], by simp [Hit, hname, hread], hunfold⟩)
  | some r =>
    obtain ⟨a, n⟩ := r
    rw [hread] at hunfold
    rcases eq_or_ne n 0 with rfl | hn
    · exact .inl ⟨⟨hname, a, hread⟩, hunfold⟩
    have hshift := shift_eq_iff (mask_le hread) ip.word a
    rw [hunfold]
    simp only [if_neg hn]
    by_cases hlow : SameLow n a ip.word
    · have hlow' : SameLow n ip.word a := fun i hi => (hlow i hi).symm
      exact .inr (.inl ⟨.inr ⟨a, n, hread, hn, hlow⟩, by simp [hshift.2 hlow']⟩)
    · have hlow' : ¬ SameLow n ip.word a := fun h => hlow fun i hi => (h i hi).symm
      refine .inr (.inr ⟨by simp [Wide, hread, hn], ?_, by simp [hshift, hlow']⟩)
      rintro (h | ⟨a', n', hread', -, hlow''⟩)
      · exact hname h
      · rw [hread] at hread'
        cases hread'
        exact hlow hlow''

theorem not_wide_of_hit (h : Hit ip name) : ¬ Wide ip name := by
  rintro ⟨hname, a, hread⟩
  rcases h with h | ⟨a', n, hread', hn, -⟩
  · exact hname h
  · rw [hread] at hread'
    cases hread'
    exact hn rfl

/-- Up to the first hit no mask is 0. -/
def NoWide (ip : Quad) : List Name → Prop
  | [] => True
  | name :: names => Hit ip name ∨ ¬ Wide ip name ∧ NoWide ip names

/-- The search comes to an end without a wide shift before a hit, and then it has found one if there is one. -/
theorem search_ok_iff (b : Bool) :
    search ip.text names = .ok b ↔ NoWide ip names ∧ (b = true ↔ ∃ name ∈ names, Hit ip name) := by
  induction names with
  | nil =>
    unfold search NoWide
    cases b <;> simp
  | cons name names ih =>
    unfold search NoWide
    rcases hits_eq ip name with ⟨hw, heq⟩ | ⟨hh, heq⟩ | ⟨hw, hh, heq⟩
    · have hh : ¬ Hit ip name := fun hh => not_wide_of_hit hh hw
      rw [heq]
      simp only [hh, hw, not_true, false_and, or_false, iff_false]
      rintro ⟨⟩
    · rw [heq]
      constructor
      · rintro ⟨⟩
        exact ⟨.inl hh, by simp [hh]⟩
      · rintro ⟨-, hb⟩
        rw [hb.2 ⟨name, List.mem_cons_self, hh⟩]
        rfl
    · rw [heq]
      have hex : (∃ e ∈ name :: names, Hit ip e) ↔ ∃ e ∈ names, Hit ip e := by simp [hh]
      rw [hex]
      simp only [hh, hw, not_false_eq_true, true_and, false_or]
      exact ih

end Search

/-! ## What the lists do -/

/-- An entry that is taken for the address: the octets and the low bits that are compared agree, but the
entry is not the name of a prefix of the address. -/
def Strays (ip : Quad) (name : Name) : Prop :=
  name ≠ ip.text ∧ ∃ a n, readName name = some (a, n) ∧ n ≠ 0 ∧ SameLow n a ip.word ∧
    ¬ ∃ q m, m ≤ 32 ∧ name = prefixName q m ∧ SamePrefix m q ip

/-- The name of a prefix of the address that is passed over: the prefix is of the broadcast address, or the low bits
that are compared do not agree. -/
def Missed (ip : Quad) (name : Name) : Prop :=
  name ≠ ip.text ∧ ∃ q n, n ≤ 32 ∧ name = prefixName q n ∧ SamePrefix n q ip ∧
    (q.word = inaddrNone ∨ n ≠ 0 ∧ ¬ SameLow n q.word ip.word)

theorem names_or_strays {ip : Quad} {name : Name} (h : Hit ip name) : Names ip name ∨ Strays ip name := by
  rcases h with h | ⟨a, n, hread, hn, hlow⟩
  · exact .inl (.inl h)
  by_cases hname : name = ip.text
  · exact .inl (.inl hname)
  by_cases hprefix : ∃ q m, m ≤ 32 ∧ name = prefixName q m ∧ SamePrefix m q ip
  · exact .inl (.inr hprefix)
  · exact .inr ⟨hname, a, n, hread, hn, hlow, hprefix⟩

theorem Strays.hit {ip : Quad} {name : Name} (h : Strays ip name) : Hit ip name := by
  obtain ⟨-, a, n, hread, hn, hlow, -⟩ := h
  exact .inr ⟨a, n, hread, hn, hlow⟩

theorem Missed.names {ip : Quad} {name : Name} (h : Missed ip name) : Names ip name := by
  obtain ⟨-, q, n, hn, hname, hsame, -⟩ := h
  exact .inr ⟨q, n, hn, hname, hsame⟩

/-- An entry that names an address hits it, is too wide, or misses it. -/
theorem hit_or_wide_or_missed {ip : Quad} {name : Name} (h : Names ip name) :
    Hit ip name ∨ Wide ip name ∨ Missed ip name := by
  rcases h with h | ⟨q, n, hn, rfl, hsame⟩
  · exact .inl (.inl h)
  by_cases hname : prefixName q n = ip.text
  · exact .inl (.inl hname)
  have hread := readName_prefixName q hn
  by_cases hnone : q.word = inaddrNone
  · exact .inr (.inr ⟨hname, q, n, hn, rfl, hsame, .inl hnone⟩)
  rw [if_neg hnone] at hread
  rcases eq_or_ne n 0 with rfl | hn0
  · exact .inr (.inl ⟨hname, q.word, hread⟩)
  by_cases hlow : SameLow n q.word ip.word
  · exact .inl (.inr ⟨q.word, n, hread, hn0, hlow⟩)
  · exact .inr (.inr ⟨hname, q, n, hn, rfl, hsame, .inr ⟨hn0, hlow⟩⟩)

theorem hit_of_wide {ip : Quad} {names : List Name} (h : NoWide ip names) {name : Name} (hmem : name ∈ names)
    (hw : Wide ip name) : ∃ e ∈ names, Hit ip e := by
  induction names with
  | nil => cases hmem
  | cons e names ih =>
    rcases h with h | ⟨he, h⟩
    · exact ⟨e, List.mem_cons_self, h⟩
    · rcases List.mem_cons.1 hmem with rfl | hmem
      · exact absurd hw he
      · obtain ⟨e', he', hhit⟩ := ih h hmem
        exact ⟨e', List.mem_cons_of_mem e he', hhit⟩

/-- An address is found in a list if and only if the list names it, without a shift by the width of the word. -/
def Judged (dir : Option (List Name)) (ip : Quad) : Prop :=
  ∃ b, flagTestCidr dir ip.text = .ok b ∧ (b = true ↔ ∃ name ∈ dir.getD [], Names ip name)

/-- A list of addresses is judged right if and only if no mask of 0 comes before the first hit, an entry that is
taken for the address stands beside one that names it, and an entry that is missed beside one that is found. -/
theorem judged_iff (dir : Option (List Name)) (ip : Quad) :
    Judged dir ip ↔ NoWide ip (dir.getD []) ∧
      (∀ name ∈ dir.getD [], Strays ip name → ∃ e ∈ dir.getD [], Names ip e) ∧
      ∀ name ∈ dir.getD [], Missed ip name → ∃ e ∈ dir.getD [], Hit ip e := by
  have hsearch : flagTestCidr dir ip.text = search ip.text (dir.getD []) := by
    cases dir <;> rfl
  unfold Judged
  rw [hsearch]
  generalize dir.getD [] = names
  constructor
  · rintro ⟨b, hb, hiff⟩
    obtain ⟨hwide, hhit⟩ := (search_ok_iff b).1 hb
    refine ⟨hwide, fun name hmem hs => ?_, fun name hmem hm => ?_⟩
    · exact hiff.1 (hhit.2 ⟨name, hmem, hs.hit⟩)
    · exact hhit.1 (hiff.2 ⟨name, hmem, hm.names⟩)
  · rintro ⟨hwide, hstray, hmiss⟩
    classical
    refine ⟨decide (∃ name ∈ names, Hit ip name), (search_ok_iff _).2 ⟨hwide, by simp⟩, ?_⟩
    rw [decide_eq_true_iff]
    constructor
    · rintro ⟨name, hmem, hhit⟩
      rcases names_or_strays hhit with h | h
      · exact ⟨name, hmem, h⟩
      · exact hstray name hmem h
    · rintro ⟨name, hmem, hname⟩
      rcases hit_or_wide_or_missed hname with h | h | h
      · exact ⟨name, hmem, h⟩
      · exact hit_of_wide hwide hmem h
      · exact hmiss name hmem h

/-- An address inside a prefix of twelve bits is not found. -/
theorem private_network_missed : ¬ ∀ (dir : Option (List Name)) (ip : Quad), Judged dir ip := by
  intro h
  obtain ⟨b, hb, hiff⟩ := h (some [prefixName ⟨172, 16, 0, 0⟩ 12]) ⟨172, 17, 0, 1⟩
  have hmiss : flagTestCidr (some [prefixName ⟨172, 16, 0, 0⟩ 12]) (Quad.text ⟨172, 17, 0, 1⟩) = .ok false := by
    decide +kernel
  have hnames : Names ⟨172, 17, 0, 1⟩ (prefixName ⟨172, 16, 0, 0⟩ 12) :=
    .inr ⟨⟨172, 16, 0, 0⟩, 12, by decide, rfl, by unfold SamePrefix; decide⟩
  rw [hmiss] at hb
  cases hb
  exact absurd (hiff.2 ⟨_, List.mem_cons_self, hnames⟩) (by decide)

end Netrek.Cidr
