/-
When `makedistress` keeps within its texts and buffers, and when a distress message keeps within the tables. A macro that is
cut off behind `%` or in the left side of a test is read past its end, and a text of 80 characters has no room for its NUL.
-/
import NetrekServer.Distress.Reader

namespace Netrek.Distress

/-! ## Records in range -/

/-- The indices of a record are in range. -/
structure Call.InRange (d : Call) : Prop where
  sender : d.sender < maxPlayer
  closeEn : d.closeEn < maxPlayer
  tcloseEn : d.tcloseEn < maxPlayer
  closeJ : d.closeJ < maxPlayer
  tcloseJ : d.tcloseJ < maxPlayer
  closeFr : d.closeFr < maxPlayer
  tcloseFr : d.tcloseFr < maxPlayer
  closePl : d.closePl < maxPlanets
  tclosePl : d.tclosePl < maxPlanets

variable {g : Scene} {d : Call} {junk : Nat → Char} {pm : List Char}

theorem indexBytes_mem {cap : Bool} {c : Char} {x : Nat × Nat} (hx : x ∈ indexBytes cap c) :
    x ∈ [(8, maxPlanets), (9, maxPlayer), (10, maxPlanets), (11, maxPlayer), (12, maxPlayer), (13, maxPlayer),
      (14, maxPlayer), (15, maxPlayer)] := by
  unfold indexBytes at hx
  split at hx <;> simp at hx <;> simp [hx]

theorem macroBytes_mem {cap : Bool} {x : Nat × Nat} (hx : x ∈ macroBytes cap pm) :
    ∃ cap c, x ∈ indexBytes cap c := by
  fun_induction macroBytes cap pm with
  | case1 => cases hx
  | case2 => cases hx
  | case3 cap c pm ih =>
    rcases List.mem_append.mp hx with hx | hx
    · exact ⟨cap, c, hx⟩
    · exact ih hx
  | case4 cap c pm _ _ ih => exact ih hx

/-- The indices that any escape uses are in range. -/
theorem Call.InRange.names (h : d.InRange) (cap : Bool) (pm : List Char) :
    ∀ x ∈ macroBytes cap pm, d.field x.1 < x.2 := by
  intro x hx
  obtain ⟨cap, c, hx⟩ := macroBytes_mem hx
  have hmem := indexBytes_mem hx
  simp only [List.mem_cons, List.not_mem_nil, or_false] at hmem
  rcases hmem with rfl | rfl | rfl | rfl | rfl | rfl | rfl | rfl
  · exact h.closePl
  · exact h.closeEn
  · exact h.tclosePl
  · exact h.tcloseEn
  · exact h.tcloseJ
  · exact h.closeJ
  · exact h.tcloseFr
  · exact h.closeFr

/-! ## The three passes together -/

/-- The text with its tests replaced, unless it ends within the left side of one. -/
def tested (text : List Char) : Option (List Char) := (Tester.run ⟨.plain, []⟩ text).result

/-- What a reader has included, as far as `cry` takes it. -/
def Reader.included (r : Reader) : List Char := r.sheet.text (min r.sheet.indb msgLen)

theorem testMacro_tested {text : List Char} (hlen : text.length < bufSize) :
    testMacro (text.length + 1) false text [] = testResult (tested text) :=
  testMacro_run (text.length + 1) false text [] (by omega) (by simpa using hlen)

theorem tested_take {text bufb : List Char} (hlen : text.length < bufSize) (h : tested text = some bufb) :
    bufb.take (bufSize - 1) = bufb := by
  have hle : bufb.length ≤ 0 + text.length := Tester.result_length h
  exact List.take_of_length_le (by omega)

/-- The third step, in terms of its reader. -/
theorem thirdStep_eq (junk : Nat → Char) (buf2 : List Char) :
    thirdStep junk buf2 =
      if (readAll junk buf2).taken = .forced then .error .pastEnd
      else if msgLen < (readAll junk buf2).included.length + 1 then .error .overrun
      else .ok ⟨min (readAll junk buf2).sheet.indb msgLen, (readAll junk buf2).included, (readAll junk buf2).sheet.aborted⟩ := by
  by_cases hnil : buf2 = []
  · subst hnil
    rfl
  unfold thirdStep
  rw [if_neg hnil]
  rcases condMacro_run junk buf2 with ⟨hforced, heq⟩ | ⟨hread, rest, heq⟩
  · rw [heq, if_pos hforced]
    rfl
  · rw [heq, if_neg hread]
    show (if (readAll junk buf2).sheet.indb = 0 then _ else _) = _
    by_cases hzero : (readAll junk buf2).sheet.indb = 0
    · rw [if_pos hzero, Reader.included, hzero]
      rfl
    · rw [if_neg hzero]
      rfl

/-- `makedistress`, if the escapes find what their indices name. -/
theorem makedistress_eq (hsender : d.sender < maxPlayer) (hnames : ∀ x ∈ macroBytes false pm, d.field x.1 < x.2)
    (g : Scene) (junk : Nat → Char) :
    makedistress g d junk pm =
      if whole pm = false then .error .pastEnd
      else if bufSize ≤ (expansion g d false pm).length then .error .overrun
      else match tested (expansion g d false pm) with
        | none => .error .pastEnd
        | some buf2 => thirdStep junk buf2 := by
  by_cases hnil : pm = []
  · subst hnil
    rfl
  unfold makedistress
  rw [if_neg hnil, substitute_eq g hsender hnames]
  cases hwhole : whole pm with
  | false => rfl
  | true =>
    rw [if_pos rfl, if_neg (by decide)]
    show (if bufSize ≤ (expansion g d false pm).length then _ else _) = _
    split_ifs with hfull
    · rfl
    rw [testMacro_tested (not_le.mp hfull)]
    cases htested : tested (expansion g d false pm) with
    | none => rfl
    | some buf2 =>
      show thirdStep junk (buf2.take (bufSize - 1)) = thirdStep junk buf2
      rw [tested_take (not_le.mp hfull) htested]

/-! ## Macros that are expanded safely -/

/-- The text is made within all texts and buffers, it fits `cry` with its NUL, and it is empty if `%*` has aborted it. -/
def Safe (r : Except Fault Cry) : Prop :=
  ∃ cry, r = .ok cry ∧ cry.text.length + 1 ≤ msgLen ∧ (cry.aborted = true → cry.text = [])

/-- No escape and no test is cut off, no conditional is skipped up to a character that is no escape, the values leave room in
    the buffers, the text has less than 80 characters, and nothing is included behind `%*`. -/
structure Complete (g : Scene) (d : Call) (junk : Nat → Char) (pm buf2 : List Char) : Prop where
  escapes : whole pm = true
  values : (expansion g d false pm).length < bufSize
  tests : tested (expansion g d false pm) = some buf2
  skips : (readAll junk buf2).taken ≠ .forced
  short : (readAll junk buf2).included.length < msgLen
  aborts : (readAll junk buf2).sheet.aborted = true → (readAll junk buf2).included = []

/-- For a record in range, a macro is expanded safely if and only if it is complete in this sense. -/
theorem makedistress_safe (h : d.InRange) (g : Scene) (junk : Nat → Char) (pm : List Char) :
    Safe (makedistress g d junk pm) ↔ ∃ buf2, Complete g d junk pm buf2 := by
  rw [makedistress_eq h.sender (h.names false pm)]
  constructor
  · rintro ⟨cry, hcry, hfits, hstill⟩
    split_ifs at hcry with hwhole hfull
    cases htested : tested (expansion g d false pm) with
    | none =>
      rw [htested] at hcry
      cases hcry
    | some buf2 =>
      rw [htested] at hcry
      dsimp only at hcry
      rw [thirdStep_eq] at hcry
      split_ifs at hcry with hforced hlong
      cases hcry
      exact ⟨buf2, Bool.not_eq_false _ ▸ hwhole, not_le.mp hfull, htested, hforced, hfits, hstill⟩
  · rintro ⟨buf2, hc⟩
    have hshort := hc.short
    rw [hc.tests, if_neg (by rw [hc.escapes]; decide), if_neg (not_le.mpr hc.values)]
    dsimp only
    rw [thirdStep_eq, if_neg hc.skips, if_neg (by omega)]
    exact ⟨_, rfl, hc.short, hc.aborts⟩

/-! ## Messages in range -/

/-- No index leaves its table, and in the table of macros none names the entry that ends it. -/
def InBounds (r : Except Fault Cry) : Prop := (∀ t i, r ≠ .error (.outOfRange t i)) ∧ r ≠ .error .nullMacro

theorem thirdStep_inBounds (junk : Nat → Char) (buf2 : List Char) : InBounds (thirdStep junk buf2) := by
  rw [thirdStep_eq]
  unfold InBounds
  split_ifs <;> simp

theorem whole_ofList {text : String} {l : List Char} (htext : text = String.ofList l)
    (hl : (!l.isEmpty && whole l) = true) : (!text.toList.isEmpty && whole text.toList) = true := by
  rw [htext, String.toList_ofList]
  exact hl

theorem distMacro_whole : ∀ m ∈ distMacro, ∀ text, m = some text → (!text.toList.isEmpty && whole text.toList) = true := by
  unfold distMacro
  simp only [List.forall_mem_cons, Option.some.injEq, forall_eq', reduceCtorEq, false_implies, implies_true,
    List.not_mem_nil, and_true]
  -- the characters of a literal are the kernel's own, so that none of them is decoded
  and_intros <;> first | refine whole_ofList rfl ?_ | refine whole_ofList String.ofList_append.symm ?_
  all_goals decide +kernel

/-- The macros of the table are whole. -/
theorem macroAt_whole {i : Nat} {m : List Char} (h : macroAt i = .ok m) : m ≠ [] ∧ whole m = true := by
  unfold macroAt at h
  cases hget : distMacro[i]? with
  | none =>
    rw [hget] at h
    cases h
  | some entry =>
    rw [hget] at h
    cases entry with
    | none => cases h
    | some text =>
      cases h
      have hwhole := distMacro_whole _ (List.mem_of_getElem? hget) text rfl
      rw [Bool.and_eq_true, Bool.not_eq_true', List.isEmpty_eq_false_iff] at hwhole
      exact hwhole

/-- The fields of a decoded record are the low bits of its bytes. -/
theorem handleGenDistr_field (mtext : Nat → UInt8) (sender : Nat) {cap : Bool} {x : Nat × Nat}
    (hx : x ∈ macroBytes cap pm) : (handleGenDistr mtext sender).field x.1 = (mtext x.1 &&& 0x7f).toNat := by
  obtain ⟨cap, c, hx⟩ := macroBytes_mem hx
  have hmem := indexBytes_mem hx
  simp only [List.mem_cons, List.not_mem_nil, or_false] at hmem
  rcases hmem with rfl | rfl | rfl | rfl | rfl | rfl | rfl | rfl <;> rfl

theorem macroAt_error {i : Nat} {e : Fault} (h : macroAt i = .error e) : e = .nullMacro ∨ ∃ t j, e = .outOfRange t j := by
  unfold macroAt at h
  split at h <;> cases h
  · exact .inl rfl
  · exact .inr ⟨_, _, rfl⟩

/-- What is made of a macro that the table has. -/
theorem makedistress_inBounds (hsender : d.sender < maxPlayer) (hm : pm ≠ [] ∧ whole pm = true) (g : Scene)
    (junk : Nat → Char) :
    InBounds (makedistress g d junk pm) ↔ ∀ x ∈ macroBytes false pm, d.field x.1 < x.2 := by
  constructor
  · rintro ⟨hrange, -⟩
    by_contra hnames
    obtain ⟨t, i, hleaves⟩ := substitute_leaves g hsender hm.2 hnames
    refine hrange t i ?_
    unfold makedistress
    rw [if_neg hm.1, hleaves]
    rfl
  · intro hnames
    rw [makedistress_eq hsender hnames]
    split_ifs
    · simp [InBounds]
    · simp [InBounds]
    · split
      · simp [InBounds]
      · exact thirdStep_inBounds junk _

/-- A message keeps within the tables if and only if its type has a macro and each byte that the macro takes for an index is
    in range. -/
theorem distressText_inBounds (g : Scene) (junk : Nat → Char) (mtext : Nat → UInt8) (sender : Slot) :
    InBounds (distressText g junk mtext sender) ↔ ∃ m, macroAt (mtext 0 &&& 0x1f).toNat = .ok m ∧
      ∀ x ∈ macroBytes false m, (mtext x.1 &&& 0x7f).toNat < x.2 := by
  have hsender : (handleGenDistr mtext sender).sender < maxPlayer := sender.isLt
  show InBounds (macroAt (mtext 0 &&& 0x1f).toNat >>= fun m => makedistress g (handleGenDistr mtext sender) junk m) ↔ _
  cases hm : macroAt (mtext 0 &&& 0x1f).toNat with
  | error e =>
    refine iff_of_false ?_ (by rintro ⟨m, hok, -⟩; cases hok)
    rintro ⟨hrange, hnull⟩
    rcases macroAt_error hm with rfl | ⟨t, j, rfl⟩
    · exact hnull rfl
    · exact hrange t j rfl
  | ok m =>
    have hbytes : (∀ x ∈ macroBytes false m, (handleGenDistr mtext sender).field x.1 < x.2) ↔
        ∀ x ∈ macroBytes false m, (mtext x.1 &&& 0x7f).toNat < x.2 :=
      forall₂_congr fun x hx => by rw [handleGenDistr_field mtext sender hx]
    refine (makedistress_inBounds hsender (macroAt_whole hm) g junk).trans (hbytes.trans ?_)
    simp only [Except.ok.injEq, exists_eq_left']

/-- Player 3 of the Federation is `F3`, and every planet is called Earth. -/
def earth : Scene where
  mem := { (default : Memory) with
    players := fun i => { (default : Player) with team := fed, name := "Ogg", mapchars := if i.val = 3 then "F3" else "R4" }
    planets := fun _ => { (default : Planet) with owner := fed, name := "Earth" } }
  kills := fun _ => []

/-- He has four armies. -/
def carrying : Call := { (default : Call) with sender := 3, arms := 4, dam := 10, shld := 90, fuelp := 50 }

theorem carrying_inRange : carrying.InRange := by
  constructor <;> decide

/-- What `distmacro[]` has for such a report. -/
def report : List Char := ((distMacro[15]?.bind id).getD "").toList

/-- With one test inside another, it reads ` F3->FED (Ogg) has 4 armies at ear.  (10% dam, 90% shd, 50% fuel)`. -/
theorem makedistress_safe_carrying : Safe (makedistress earth carrying (fun _ => ' ') report) := by
  have hcomplete : Complete earth carrying (fun _ => ' ') report ((tested (expansion earth carrying false report)).getD []) :=
    ⟨by decide +kernel, by decide +kernel, by decide +kernel, by decide +kernel, by decide +kernel, by decide +kernel⟩
  exact (makedistress_safe carrying_inRange earth (fun _ => ' ') report).2 ⟨_, hcomplete⟩

/-! ## Macros and messages that fail -/

/-- Players and planets without names. -/
def nowhere : Scene := { mem := default, kills := fun _ => [] }

theorem not_safe_of_error {r : Except Fault Cry} (e : Fault) (h : r = .error e) : ¬Safe r := by
  rintro ⟨cry, hcry, -⟩
  rw [h] at hcry
  cases hcry

/-- Macros that are cut off behind `%`, before the operation of a test, and in a conditional that is skipped; a text of 80
    characters; values for more than the buffer holds; and text behind `%*` in a conditional. -/
theorem makedistress_unsafe :
    let made (pm : List Char) := makedistress nowhere default (fun _ => ' ') pm
    ¬Safe (made ['%']) ∧ ¬Safe (made ['%', '?', '1']) ∧
      ¬Safe (made ['%', '?', '1', '=', '2', '%', '{', '%', '{', '%', '*']) ∧
      ¬Safe (made (List.replicate 80 'x')) ∧ ¬Safe (made (List.replicate 850 'x')) ∧
      ¬Safe (made ['%', '{', '%', '*', 'x']) := by
  refine ⟨?_, ?_, ?_, ?_, ?_, ?_⟩
  · exact not_safe_of_error .pastEnd (by decide +kernel)
  · exact not_safe_of_error .pastEnd (by decide +kernel)
  · exact not_safe_of_error .pastEnd (by decide +kernel)
  · exact not_safe_of_error .overrun (by decide +kernel)
  · exact not_safe_of_error .overrun (by decide +kernel)
  · rintro ⟨cry, hcry, -, hstill⟩
    have hmade : makedistress nowhere default (fun _ => ' ') ['%', '{', '%', '*', 'x'] = .ok ⟨1, ['x'], true⟩ := by
      decide +kernel
    cases hcry.symm.trans hmade
    cases hstill rfl

/-- A request for help whose nearest player is number 127. -/
theorem distressText_outOfBounds :
    ¬InBounds (distressText nowhere (fun _ => ' ') (fun i => if i = 0 then 2 else if i = 12 then 0xff else 0x80) 0) := by
  rintro ⟨hrange, -⟩
  exact hrange .players 127 (by decide +kernel)

end Netrek.Distress
