/-
What fat UDP repeats. `sendClientPacket` would put the node of a semi-critical packet on a queue if it knew that the
packet is one, but its mark for this is never set: the queues stay empty, and nothing is repeated.
-/
import NetrekServer.Socket.FatQueue
import NetrekServer.Socket.Integrity

namespace Netrek.Sending

open Netrek.Lib

/-! ## The process -/

/-- The output of a process with its fat queues. -/
structure Link where
  out : Output
  fat : Fat
  /-- For a node whose packet has been sent by UDP, in how many transmissions it was repeated since. -/
  repeats : Node → Option Nat

/-- The packets that are to be repeated, by type. -/
def semiCritical : List UInt8 := [3, 5, 7, 8, 12 ||| 0x40, 15, 18, 22, 43 ||| 0x40, 50, 57, 58]

/-- The packet goes by UDP. -/
def Output.byUdp (o : Output) (packet : Packet) : Bool := !o.strange packet && !o.byTcp packet

/-- The packet goes by UDP, and is to be repeated. -/
def Output.fatPacket (o : Output) (packet : Packet) : Bool :=
  o.byUdp packet && o.udpMode == .fat && semiCritical.contains (packet 0)

/-- `sendClientPacket`. -/
def Link.sendClientPacket (s : Link) (packet : Packet) : Link :=
  let issc := false
  { out := s.out.sendClientPacket packet
    fat := if s.out.byUdp packet && (issc && s.out.udpMode == .fat) then
        s.fat.updateFat s.out.sizes (Output.plain packet)
      else s.fat
    repeats := fun n =>
      if s.out.fatPacket packet ∧ fatNode (Output.plain packet) = some n then some 0 else s.repeats n }

/-- `fatten`, if `flushSockBuf` comes to it. -/
def Link.fatten (s : Link) (fuel : Nat) : Option Fattening :=
  if s.out.udpOpen && s.out.udpMode == .fat && decide (s.out.udpptr < fatThresh) then s.fat.fatten fuel
  else some ⟨s.fat, maxFatData, []⟩

/-- `flushSockBuf`. -/
def Link.flushSockBuf (s : Link) (fuel : Nat) : Link :=
  if s.out.clientDead then s
  else
    match s.fatten fuel with
    | none => s
    | some f =>
      { out := s.out.flushSockBuf (maxFatData - f.bytesleft)
        fat := if s.out.udpMode = .fat then f.fat.fatMerge else f.fat
        repeats := fun n => if n ∈ f.sent then (s.repeats n).map (· + 1) else s.repeats n }

/-! ## Steps -/

inductive LinkAct
  | send (packet : Packet)
  /-- The size of a type of variable length is set before a packet of it is sent. -/
  | setSize (type : UInt8) (size : Int)
  /-- `flushSockBuf`, where `fatten` has turns enough. -/
  | flush (fuel : Nat)

def LinkAct.run (s : Link) : LinkAct → Link
  | .send packet => s.sendClientPacket packet
  | .setSize type size => { s with out := s.out.setSize type size }
  | .flush fuel => s.flushSockBuf fuel

/-- The packets fit into a transmission. -/
def Slim (sizes : UInt8 → Int) : Prop := ∀ type, sizes type ≤ udpBufSize - sequenceSize

/-- What the callers keep to: sizes are sizes of packets that fit, and are set first. -/
def LinkAct.lawful (s : Link) : LinkAct → Prop
  | .send packet => 0 ≤ s.out.size packet
  | .setSize _ size => 0 ≤ size ∧ size ≤ udpBufSize - sequenceSize
  | .flush fuel => (s.fatten fuel).isSome = true

/-- No packet goes by UDP that is to be repeated. -/
def LinkAct.fine (s : Link) : LinkAct → Prop
  | .send packet => ∀ n, fatNode (Output.plain packet) = some n → s.out.fatPacket packet = false
  | _ => True

/-- The client has changed to fat UDP, and nothing has been sent. -/
structure Link.Start (s : Link) : Prop where
  udp : s.out.udp = true
  mode : s.out.udpMode = .fat
  udpOpen : s.out.udpOpen = true
  udpptr : s.out.udpptr = sequenceSize
  sizes : Slim s.out.sizes
  fat : s.fat = Fat.initClientData .blank
  repeats : ∀ n, s.repeats n = none

/-- A packet that was sent by UDP waits to be repeated, or has been repeated often enough. -/
def Link.Repeated (s : Link) : Prop :=
  ∀ n k, s.repeats n = some k → (∃ q, Queued s.fat q ∧ ∃ w, n ∈ q w) ∨ maxFatList ≤ k

/-- What `fatten` adds are whole packets, not too many of them, and the UDP buffer has room for all. -/
def Link.Roomy (s : Link) : Prop :=
  s.out.udpptr ≤ udpBufSize ∧ ∀ fuel f, s.fat.fatten fuel = some f →
    (f.sent.map s.fat.size).sum + f.bytesleft = maxFatData ∧
      (s.out.udpptr < fatThresh → s.out.udpptr + (f.sent.map s.fat.size).sum ≤ udpBufSize)

/-! ## Empty queues -/

/-- Nothing is queued, and what was sent by UDP has not been repeated. -/
structure Link.Idle (s : Link) : Prop where
  fat : Queued s.fat fun _ => []
  sizes : Slim s.out.sizes
  udpptr : s.out.udpptr ≤ udpBufSize
  repeats : ∀ n k, s.repeats n = some k → k = 0

section Idle

variable {s : Link}

theorem Link.Start.idle (h : s.Start) : s.Idle := by
  refine ⟨?_, h.sizes, ?_, fun n k hk => ?_⟩
  · rw [h.fat]
    have hinit := queued_blank.initClientData (fun _ => rfl) fun _ => rfl
    have hclear : clearQueues (fun _ => []) = fun _ => [] := by
      funext w
      cases w <;> rfl
    rwa [hclear] at hinit
  · rw [h.udpptr]
    decide
  · rw [h.repeats] at hk
    cases hk

theorem sent_nil {s : Fat} (h : Queued s fun _ => []) {fuel : Nat} {f : Fattening} (hf : s.fatten fuel = some f) :
    Queued f.fat (fun _ => []) ∧ f.sent = [] ∧ f.bytesleft = maxFatData := by
  obtain ⟨q', new, hfat⟩ := h.fatten_some hf
  have hnew : new = [] := by
    refine List.eq_nil_iff_forall_not_mem.mpr fun m hm => ?_
    obtain ⟨i, hi⟩ := hfat.source m hm
    cases hi
  subst hnew
  have hq : q' = fun _ => [] := by
    funext w
    refine List.eq_nil_iff_forall_not_mem.mpr fun m hm => ?_
    cases (hfat.others m (by simp) w).mp hm
  refine ⟨hq ▸ hfat.queued, hfat.sent, hfat.bytes⟩

theorem Link.Idle.roomy (h : s.Idle) : s.Roomy := by
  refine ⟨h.udpptr, fun fuel f hf => ?_⟩
  obtain ⟨-, hsent, hbytes⟩ := sent_nil h.fat hf
  rw [hsent, hbytes]
  exact ⟨rfl, fun _ => h.udpptr⟩

/-- With empty queues, what was sent by UDP is not repeated. -/
theorem Link.Idle.repeated_iff (h : s.Idle) : s.Repeated ↔ ∀ n, s.repeats n = none := by
  constructor
  · intro hr n
    cases hk : s.repeats n with
    | none => rfl
    | some k =>
      rcases hr n k hk with ⟨q, hq, w, hw⟩ | hmany
      · rw [hq.unique h.fat] at hw
        cases hw
      · rw [h.repeats n k hk] at hmany
        exact absurd hmany (by decide)
  · intro hnone n k hk
    rw [hnone] at hk
    cases hk

end Idle

/-! ## The UDP buffer -/

section Buffer

variable (o : Output)

theorem udpptr_gwrite (tcp : Bool) (bytes : List UInt8) : (o.gwrite tcp bytes).1.udpptr = o.udpptr := by
  unfold Output.gwrite
  split
  · rfl
  split
  · rfl
  split
  · rfl
  · dsimp only
    split <;> rfl

theorem udpptr_writeTcp : o.writeTcp.udpptr = o.udpptr := udpptr_gwrite o true o.pending

theorem sizes_writeTcp : o.writeTcp.sizes = o.sizes := (wrote o true o.pending).sizes

theorem sizes_writeUdp : o.writeUdp.sizes = o.sizes := (wrote o false (List.replicate o.udpptr 0)).sizes

variable {o}

/-- Sending a packet leaves the table of sizes. -/
theorem sizes_send (packet : Packet) : (o.sendClientPacket packet).sizes = o.sizes := by
  unfold Output.sendClientPacket
  split
  · rfl
  dsimp only
  split
  · show (if _ then o.writeTcp else o : Output).sizes = _
    split
    · exact sizes_writeTcp o
    · rfl
  · show (if _ then o.writeUdp else o : Output).sizes = _
    split
    · exact sizes_writeUdp o
    · rfl

/-- A packet that does not fit behind the others goes with the next transmission. -/
theorem udpptr_send (packet : Packet) (hsizes : Slim o.sizes) (hroom : o.udpptr ≤ udpBufSize) :
    (o.sendClientPacket packet).udpptr ≤ udpBufSize := by
  have hsize : o.size packet ≤ udpBufSize - sequenceSize := hsizes _
  have hcap : sequenceSize ≤ udpBufSize := by decide
  unfold Output.sendClientPacket
  split
  · exact hroom
  dsimp only
  split
  · show (if _ then o.writeTcp else o : Output).udpptr ≤ _
    split
    · rw [udpptr_writeTcp]
      exact hroom
    · exact hroom
  · split
    · show sequenceSize + (o.size packet).toNat ≤ udpBufSize
      omega
    · next hfits =>
      show o.udpptr + (o.size packet).toNat ≤ udpBufSize
      omega

/-- Flushing leaves the table of sizes, and room for a packet. -/
theorem flush_frame (fat : Nat) : (o.flushSockBuf fat).sizes = o.sizes ∧
    (o.udpptr + fat ≤ udpBufSize → (o.flushSockBuf fat).udpptr ≤ udpBufSize) := by
  have hcap : sequenceSize ≤ udpBufSize := by decide
  unfold Output.flushSockBuf
  split
  · exact ⟨rfl, fun h => by omega⟩
  dsimp only
  obtain ⟨o₁, ho₁, hs₁, hp₁⟩ : ∃ o₁, (if o.bufptr ≠ 0 then o.writeTcp else o) = o₁ ∧ o₁.sizes = o.sizes ∧
      o₁.udpptr = o.udpptr := by
    refine ⟨_, rfl, ?_⟩
    split
    · exact ⟨sizes_writeTcp o, udpptr_writeTcp o⟩
    · exact ⟨rfl, rfl⟩
  rw [ho₁]
  obtain ⟨o₂, ho₂, hs₂, hp₂⟩ : ∃ o₂, (if o₁.udpOpen && o₁.udpMode == .fat && decide (o₁.udpptr < fatThresh) then
      { o₁ with udpptr := o₁.udpptr + fat } else o₁) = o₂ ∧ o₂.sizes = o.sizes ∧ o₂.udpptr ≤ o.udpptr + fat := by
    refine ⟨_, rfl, ?_⟩
    split
    · refine ⟨hs₁, ?_⟩
      show o₁.udpptr + fat ≤ _
      omega
    · exact ⟨hs₁, by omega⟩
  rw [ho₂]
  split
  · exact ⟨(sizes_writeUdp o₂).trans hs₂, fun _ => hcap⟩
  · exact ⟨hs₂, fun h => by omega⟩

end Buffer

/-! ## Steps from empty queues -/

section Steps

variable {s : Link}

/-- What `flushSockBuf` finds to send again: nothing. -/
theorem Link.Idle.fatten (h : s.Idle) {fuel : Nat} {f : Fattening} (hf : s.fatten fuel = some f) :
    Queued f.fat (fun _ => []) ∧ f.sent = [] ∧ f.bytesleft = maxFatData := by
  unfold Link.fatten at hf
  split at hf
  · exact sent_nil h.fat hf
  · cases hf
    exact ⟨h.fat, rfl, rfl⟩

theorem queued_fatMerge {s : Fat} (h : Queued s fun _ => []) : Queued s.fatMerge fun _ => [] := by
  have hmerge : mergeAll (fun _ => []) = fun _ => [] := by
    funext w
    refine List.eq_nil_iff_forall_not_mem.mpr fun m hm => ?_
    cases w with
    | fatlist i =>
      have hin := (mem_mergeAll m i (List.range maxFatList) fun _ => []).2.mp hm
      simp at hin
    | tmplist i =>
      have hin := (mem_mergeAll m i (List.range maxFatList) fun _ => []).1.mp hm
      simp at hin
  have hq := h.fatMerge.1
  rwa [hmerge] at hq

/-- No operation queues anything, or repeats what was sent. -/
theorem Link.Idle.step (h : s.Idle) {a : LinkAct} (hok : a.lawful s) : (a.run s).Idle := by
  cases a with
  | send packet =>
    refine ⟨?_, ?_, udpptr_send packet h.sizes h.udpptr, fun n k hk => ?_⟩
    · show Queued (if _ then _ else s.fat) _
      -- the packet is not known to be semi-critical
      rw [Bool.false_and, Bool.and_false, if_neg nofun]
      exact h.fat
    · show Slim (s.out.sendClientPacket packet).sizes
      rw [sizes_send]
      exact h.sizes
    · have hk : (if s.out.fatPacket packet ∧ fatNode (Output.plain packet) = some n then some 0
        else s.repeats n) = some k := hk
      split at hk
      · cases hk
        rfl
      · exact h.repeats n k hk
  | setSize type size =>
    refine ⟨h.fat, fun t => ?_, h.udpptr, h.repeats⟩
    show Function.update s.out.sizes type size t ≤ _
    rw [Function.update_apply]
    split
    · exact hok.2
    · exact h.sizes t
  | flush fuel =>
    obtain ⟨f, hf⟩ := Option.isSome_iff_exists.mp hok
    obtain ⟨hfat, hsent, hbytes⟩ := h.fatten hf
    obtain ⟨hsizes, hroom⟩ := flush_frame (o := s.out) (maxFatData - f.bytesleft)
    show (s.flushSockBuf fuel).Idle
    unfold Link.flushSockBuf
    rw [hf]
    split
    · exact h
    dsimp only
    refine ⟨?_, ?_, ?_, fun n k hk => ?_⟩
    · split
      · exact queued_fatMerge hfat
      · exact hfat
    · show Slim (s.out.flushSockBuf _).sizes
      rw [hsizes]
      exact h.sizes
    · refine hroom ?_
      rw [hbytes, Nat.sub_self]
      exact h.udpptr
    · have hk : (if n ∈ f.sent then (s.repeats n).map (· + 1) else s.repeats n) = some k := hk
      rw [hsent, if_neg (by simp)] at hk
      exact h.repeats n k hk

/-- Something is to be repeated after a step just if it was before, or is sent now. -/
theorem Link.Idle.none_step (h : s.Idle) {a : LinkAct} (hok : a.lawful s) :
    (∀ n, (a.run s).repeats n = none) ↔ (∀ n, s.repeats n = none) ∧ a.fine s := by
  cases a with
  | send packet =>
    constructor
    · intro hall
      have hcase (n : Node) : (if s.out.fatPacket packet ∧ fatNode (Output.plain packet) = some n then some 0
        else s.repeats n) = none := hall n
      refine ⟨fun n => ?_, fun n hn => ?_⟩
      · have hn := hcase n
        split at hn
        · cases hn
        · exact hn
      · by_contra hfat
        rw [Bool.not_eq_false] at hfat
        have hn' := hcase n
        rw [if_pos ⟨hfat, hn⟩] at hn'
        cases hn'
    · rintro ⟨hnone, hfine⟩ n
      show (if s.out.fatPacket packet ∧ fatNode (Output.plain packet) = some n then some 0 else s.repeats n) = none
      rw [if_neg]
      · exact hnone n
      · rintro ⟨hfat, hn⟩
        rw [hfine n hn] at hfat
        cases hfat
  | setSize type size => exact ⟨fun hall => ⟨hall, trivial⟩, And.left⟩
  | flush fuel =>
    obtain ⟨f, hf⟩ := Option.isSome_iff_exists.mp hok
    obtain ⟨-, hsent, -⟩ := h.fatten hf
    have hsame : (s.flushSockBuf fuel).repeats = s.repeats := by
      unfold Link.flushSockBuf
      rw [hf]
      split
      · rfl
      · funext n
        show (if n ∈ f.sent then (s.repeats n).map (· + 1) else s.repeats n) = s.repeats n
        rw [hsent, if_neg (by simp)]
    show (∀ n, (s.flushSockBuf fuel).repeats n = none) ↔ _
    rw [hsame]
    exact ⟨fun hall => ⟨hall, trivial⟩, And.left⟩

end Steps

/-! ## Runs -/

theorem Link.Idle.run {s s' : Link} {acts : List LinkAct} (hrun : Run LinkAct.lawful LinkAct.run s acts s') (h : s.Idle) :
    s'.Idle := hrun.inv (fun _ _ hok h => h.step hok) h

/-- No packet that is to be repeated has been sent exactly if every operation of the run is fine. -/
theorem none_run {s' : Link} : ∀ {s : Link} {acts : List LinkAct}, Run LinkAct.lawful LinkAct.run s acts s' → s.Idle →
    ((∀ n, s'.repeats n = none) ↔
      (∀ n, s.repeats n = none) ∧ Run (fun s a => LinkAct.lawful s a ∧ LinkAct.fine s a) LinkAct.run s acts s')
  | _, _, .nil s, _ => ⟨fun hall => ⟨hall, .nil s⟩, And.left⟩
  | s, _, .cons (a := a) hok hrun, h => by
    have hstep := h.none_step hok
    have hrest := none_run hrun (h.step hok)
    constructor
    · intro hall
      obtain ⟨hnone, hrun'⟩ := hrest.mp hall
      obtain ⟨hnone', hfine⟩ := hstep.mp hnone
      exact ⟨hnone', .cons ⟨hok, hfine⟩ hrun'⟩
    · rintro ⟨hnone, _ | ⟨⟨-, hfine⟩, hrun'⟩⟩
      exact hrest.mpr ⟨hstep.mpr ⟨hnone, hfine⟩, hrun'⟩

/-- In fat UDP, the buffer always has room, and what is added to a transmission are whole packets; but what is to be
repeated is so just as long as no packet is sent that is to be. -/
theorem fat_repeats {s s' : Link} {acts : List LinkAct} (hs : s.Start) (hrun : Run LinkAct.lawful LinkAct.run s acts s') :
    s'.Roomy ∧ (s'.Repeated ↔ Run (fun s a => LinkAct.lawful s a ∧ LinkAct.fine s a) LinkAct.run s acts s') := by
  have hidle := Link.Idle.run hrun hs.idle
  refine ⟨hidle.roomy, hidle.repeated_iff.trans ((none_run hrun hs.idle).trans ?_)⟩
  exact and_iff_right hs.repeats

/-- A client in fat UDP mode. -/
def fatLink : Link where
  out :=
    let out : Output := default
    { out with
      udp := true, udpMode := .fat, udpOpen := true, udpptr := sequenceSize
      sizes := fun type => if type = 12 then 32 else 0 }
  fat := Fat.initClientData .blank
  repeats _ := none

theorem fatLink_start : fatLink.Start := by
  refine ⟨rfl, rfl, rfl, rfl, fun type => ?_, rfl, fun _ => rfl⟩
  show (if type = 12 then (32 : Int) else 0) ≤ udpBufSize - sequenceSize
  split <;> decide

/-- `SP_YOU` when it is semi-critical. -/
def markedYou : Packet := fun k => [12 ||| 0x40].getD k 0

theorem fat_repeats_plain : ([.send youPacket, .flush 2].foldl LinkAct.run fatLink).Repeated := by
  have hok : LinkAct.lawful fatLink (.send youPacket) := by
    show 0 ≤ fatLink.out.size youPacket
    decide +kernel
  have hok' : LinkAct.lawful (LinkAct.run fatLink (.send youPacket)) (.flush 2) := by
    show Option.isSome _ = true
    decide +kernel
  have hfine : LinkAct.fine fatLink (.send youPacket) := by
    intro n _
    decide +kernel
  refine (fat_repeats fatLink_start (.cons hok (.cons hok' (.nil _)))).2.mpr ?_
  exact .cons ⟨hok, hfine⟩ (.cons ⟨hok', trivial⟩ (.nil _))

/-- A semi-critical packet is not on a queue when it has been sent. -/
theorem marked_forgotten : ¬ ∀ (s s' : Link) (acts : List LinkAct), s.Start → Run LinkAct.lawful LinkAct.run s acts s' →
    s'.Repeated := by
  intro hall
  have hok : LinkAct.lawful fatLink (.send markedYou) := by
    show 0 ≤ fatLink.out.size markedYou
    decide +kernel
  have hrun : Run LinkAct.lawful LinkAct.run fatLink [.send markedYou] (LinkAct.run fatLink (.send markedYou)) :=
    .cons hok (.nil _)
  have hrepeated := hall _ _ _ fatLink_start hrun
  rw [(Link.Idle.run hrun fatLink_start.idle).repeated_iff] at hrepeated
  have hyou : (LinkAct.run fatLink (.send markedYou)).repeats .you = some 0 := by decide +kernel
  rw [hrepeated] at hyou
  cases hyou

end Netrek.Sending
