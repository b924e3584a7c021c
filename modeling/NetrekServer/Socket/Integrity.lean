/-
What is written to the TCP socket is what `sendClientPacket` was given for it, in order, as long as
nothing is pending when `parseIgnore` answers a client: it puts its answer together in `buf`, where
the pending output is.
-/
import NetrekServer.Lib.Run
import NetrekServer.Socket.Output

namespace Netrek.Sending

open Netrek.Lib
open Netrek.Request (World MesgCPacket handleMessageReq)

/-! ## The invariant -/

/-- No packet is larger than the buffer, and the packets of warnings have a size. -/
structure Fits (sizes : UInt8 → Int) : Prop where
  le : ∀ type, sizes type ≤ bufSize
  warning : 0 ≤ sizes Output.spWarning
  sWarning : 0 ≤ sizes Output.spSWarning

/-- What was written is the beginning of what was handed over, and to a living client the rest is pending. -/
structure Intact (o : Output) : Prop where
  behind : o.wire <+: o.handed.flatten
  whole : o.clientDead = false → o.wire ++ o.pending = o.handed.flatten
  room : o.bufptr ≤ bufSize
  fits : Fits o.sizes

/-- What `gwrite` does to the rest: as much of the bytes as `k` is written, and all of them if it succeeds. -/
structure Wrote (o o' : Output) (tcp : Bool) (bytes : List UInt8) (done : Bool) : Prop where
  buf : o'.buf = o.buf
  bufptr : o'.bufptr = o.bufptr
  handed : o'.handed = o.handed
  sizes : o'.sizes = o.sizes
  alive : o'.clientDead = false → o.clientDead = false
  dead : o.clientDead = true → o'.wire = o.wire
  wire : ∃ k, o'.wire = o.wire ++ if tcp then bytes.take k else []
  done : o'.clientDead = false → done = true → o'.wire = o.wire ++ if tcp then bytes else []

/-- `gwrite` writes a beginning of the bytes. -/
theorem wrote (o : Output) (tcp : Bool) (bytes : List UInt8) :
    Wrote o (o.gwrite tcp bytes).1 tcp bytes (o.gwrite tcp bytes).2 := by
  have nothing : o.wire = o.wire ++ if tcp then bytes.take 0 else [] := by cases tcp <;> simp
  unfold Output.gwrite
  split
  · next hdead =>
    refine ⟨rfl, rfl, rfl, rfl, id, fun _ => rfl, ⟨0, nothing⟩, fun halive _ => ?_⟩
    rw [hdead] at halive
    cases halive
  split
  · exact ⟨rfl, rfl, rfl, rfl, id, fun _ => rfl, ⟨0, nothing⟩, fun _ hdone => by cases hdone⟩
  split
  · next hempty =>
    refine ⟨rfl, rfl, rfl, rfl, id, fun _ => rfl, ⟨0, nothing⟩, fun _ _ => ?_⟩
    rw [List.isEmpty_iff.1 hempty]
    cases tcp <;> simp
  · next hdead _ _ =>
    dsimp only
    split
    · refine ⟨rfl, rfl, rfl, rfl, id, fun hd => absurd hd hdead, ⟨bytes.length, ?_⟩, fun _ _ => rfl⟩
      rw [List.take_length]
    · next k hosed _ =>
      refine ⟨rfl, rfl, rfl, rfl, fun _ => by simpa using hdead, fun hd => absurd hd hdead, ⟨k, ?_⟩,
        fun _ hdone => by cases hdone⟩
      cases tcp <;> simp

namespace Intact

variable {o o' : Output}

/-- A step that touches neither the pending output nor the socket. -/
theorem congr (h : Intact o) (hw : o'.wire = o.wire) (hb : o'.buf = o.buf) (hp : o'.bufptr = o.bufptr)
    (hh : o'.handed = o.handed) (hd : o'.clientDead = false → o.clientDead = false) (hs : o'.sizes = o.sizes) :
    Intact o' where
  behind := by rw [hw, hh]; exact h.behind
  whole halive := by
    unfold Output.pending
    rw [hw, hb, hp, hh]
    exact h.whole (hd halive)
  room := by rw [hp]; exact h.room
  fits := by rw [hs]; exact h.fits

/-- All that is pending is written, or the client is dead. -/
theorem writeTcp (h : Intact o) : Intact o.writeTcp := by
  have hw := wrote o true o.pending
  have hwire := hw.wire
  refine ⟨?_, ?_, Nat.zero_le _, ?_⟩
  · show (o.gwrite true o.pending).1.wire <+: (o.gwrite true o.pending).1.handed.flatten
    rw [hw.handed]
    by_cases hdead : o.clientDead = true
    · rw [hw.dead hdead]
      exact h.behind
    · obtain ⟨k, hk⟩ := hwire
      rw [hk, ← h.whole (by simpa using hdead), if_pos rfl]
      exact (List.prefix_append_right_inj _).2 (List.take_prefix _ _)
  · intro halive
    have halive : ((o.gwrite true o.pending).1.clientDead || !(o.gwrite true o.pending).2) = false := halive
    simp only [Bool.or_eq_false_iff, Bool.not_eq_false'] at halive
    show (o.gwrite true o.pending).1.wire ++ [] = (o.gwrite true o.pending).1.handed.flatten
    rw [hw.handed, List.append_nil, hw.done halive.1 halive.2, if_pos rfl, h.whole (hw.alive halive.1)]
  · show Fits (o.gwrite true o.pending).1.sizes
    rw [hw.sizes]
    exact h.fits

/-- The UDP buffer is another one. -/
theorem writeUdp (h : Intact o) : Intact o.writeUdp := by
  have hw := wrote o false (List.replicate o.udpptr 0)
  obtain ⟨k, hk⟩ := hw.wire
  refine h.congr ?_ hw.buf hw.bufptr hw.handed hw.alive hw.sizes
  exact hk.trans (List.append_nil _)

/-- A packet goes behind what is pending. -/
theorem append (h : Intact o) {bytes : List UInt8} (hroom : o.bufptr + bytes.length ≤ bufSize) :
    Intact { o with
      buf := o.buf.write o.bufptr bytes, bufptr := o.bufptr + bytes.length, handed := o.handed ++ [bytes] } where
  behind := by
    rw [List.flatten_append, List.flatten_singleton]
    exact h.behind.trans (List.prefix_append _ _)
  whole halive := by
    unfold Output.pending
    dsimp only
    rw [Cells.read_write_append, List.flatten_append, List.flatten_singleton, ← h.whole halive, List.append_assoc]
    rfl
  room := hroom
  fits := h.fits

/-- With nothing pending, or nobody to write to, the text does no harm. -/
theorem strcpy (h : Intact o) (text : String) (hidle : o.bufptr = 0 ∨ o.clientDead = true) :
    Intact (o.strcpy text) where
  behind := h.behind
  whole halive := by
    rcases hidle with hptr | hdead
    · have := h.whole halive
      unfold Output.strcpy Output.pending
      unfold Output.pending at this
      dsimp only
      rw [hptr] at this ⊢
      exact this
    · have halive : o.clientDead = false := halive
      rw [hdead] at halive
      cases halive
  room := h.room
  fits := h.fits

/-- The size of a packet is no part of the stream. -/
theorem setSize (h : Intact o) (type : UInt8) {size : Int} (h0 : 0 ≤ size) (hle : size ≤ bufSize) :
    Intact (o.setSize type size) where
  behind := h.behind
  whole := h.whole
  room := h.room
  fits := by
    have hf := h.fits
    unfold Output.setSize
    refine ⟨fun t => ?_, ?_, ?_⟩
    all_goals
      dsimp only
      rw [Function.update_apply]
      split
    · exact hle
    · exact hf.le t
    · exact h0
    · exact hf.warning
    · exact h0
    · exact hf.sWarning

end Intact

/-! ## Packets -/

section

variable {o : Output}

theorem length_bytes (o : Output) (packet : Packet) : (o.bytes packet).length = (o.size packet).toNat :=
  Cells.length_read _ _ _

theorem toNat_le {n : Int} {m : Nat} (h : n ≤ m) : n.toNat ≤ m := by omega

/-- A packet is put behind what is pending. -/
theorem Intact.sendClientPacket (h : Intact o) (packet : Packet) : Intact (o.sendClientPacket packet) := by
  unfold Output.sendClientPacket
  split
  · exact h
  dsimp only
  have hlen := length_bytes o packet
  have hle : (o.size packet).toNat ≤ bufSize := toNat_le (h.fits.le _)
  rw [← hlen] at hle ⊢
  split
  · split
    -- the packet does not fit behind what is pending, so that is written first
    · refine (h.writeTcp).append ?_
      show 0 + (o.bytes packet).length ≤ bufSize
      omega
    · exact h.append (by omega)
  · split
    · exact (h.writeUdp).congr rfl rfl rfl rfl id rfl
    · exact h.congr rfl rfl rfl rfl id rfl

/-! ## Flushing -/

/-- Flushing hands over what is pending. -/
theorem Intact.flush (h : Intact o) (fat : Nat) : Intact (o.flushSockBuf fat) := by
  unfold Output.flushSockBuf
  split
  · exact h
  dsimp only
  have h1 : Intact (if o.bufptr ≠ 0 then o.writeTcp else o) := by
    split
    · exact h.writeTcp
    · exact h
  generalize (if o.bufptr ≠ 0 then o.writeTcp else o) = o1 at h1
  have h2 : Intact (if (o1.udpOpen && o1.udpMode == .fat && decide (o1.udpptr < fatThresh)) = true then
      { o1 with udpptr := o1.udpptr + fat } else o1) := by
    split
    · exact h1.congr rfl rfl rfl rfl id rfl
    · exact h1
  generalize (if (o1.udpOpen && o1.udpMode == .fat && decide (o1.udpptr < fatThresh)) = true then
      { o1 with udpptr := o1.udpptr + fat } else o1) = o2 at h2
  split
  · exact h2.writeUdp
  · exact h2

/-- After a flush nothing is pending, if the client lives. -/
theorem bufptr_flush (o : Output) (fat : Nat) (halive : (o.flushSockBuf fat).clientDead = false) :
    (o.flushSockBuf fat).bufptr = 0 := by
  unfold Output.flushSockBuf at halive ⊢
  split
  · next hdead =>
    rw [if_pos hdead, hdead] at halive
    cases halive
  dsimp only
  have h1 : (if o.bufptr ≠ 0 then o.writeTcp else o).bufptr = 0 := by
    split
    · rfl
    · next h => exact not_not.1 h
  generalize (if o.bufptr ≠ 0 then o.writeTcp else o) = o1 at h1
  have h2 : (if (o1.udpOpen && o1.udpMode == .fat && decide (o1.udpptr < fatThresh)) = true then
      { o1 with udpptr := o1.udpptr + fat } else o1).bufptr = 0 := by
    split
    · exact h1
    · exact h1
  generalize (if (o1.udpOpen && o1.udpMode == .fat && decide (o1.udpptr < fatThresh)) = true then
      { o1 with udpptr := o1.udpptr + fat } else o1) = o2 at h2
  split
  · exact (wrote o2 false (List.replicate o2.udpptr 0)).bufptr.trans h2
  · exact h2

/-! ## Warnings -/

theorem shortSize_le (mesg : List UInt8) : (Output.shortSize mesg : Int) ≤ bufSize := by
  have hlen : (mesg.take (msgLen - 1)).length ≤ 79 := by
    rw [List.length_take]
    exact Nat.min_le_left _ _
  have hsize : bufSize = 16738 := rfl
  unfold Output.shortSize
  omega

theorem Intact.warning (h : Intact o) (sendShort : Bool) (text : String) : Intact (o.warning sendShort text) := by
  unfold Output.warning
  dsimp only
  split
  · exact h.sendClientPacket _
  · refine Intact.setSize ((h.setSize _ ?_ (shortSize_le _)).sendClientPacket _) _ (by decide) (by decide)
    exact Int.natCast_nonneg _

theorem Intact.newWarning (h : Intact o) (sendShort : Bool) (text : String) :
    Intact (Output.newWarning sendShort o text) := by
  unfold Output.newWarning
  split
  · unfold Output.spwarning
    split
    · exact h.warning _ _
    · exact h.sendClientPacket _
  · exact h.warning _ _

theorem Intact.newWarnings (sendShort : Bool) (texts : List String) {o : Output} (h : Intact o) :
    Intact (texts.foldl (Output.newWarning sendShort) o) := by
  induction texts generalizing o with
  | nil => exact h
  | cons text texts ih => exact ih (h.newWarning sendShort text)

end

/-! ## The answer -/

/-- An ignore command that is answered has the text put together in `buf` as its one warning. -/
theorem warnings_answer {w w' : World} {now : Int} {p : MesgCPacket} (ha : answersIgnore w now p = true)
    (h : handleMessageReq w now p = .ok w') :
    ∃ mask, w'.warnings = w.warnings ++ [Request.ignoreStatus mask] := by
  unfold answersIgnore reachesIgnore at ha
  simp only [Bool.and_eq_true, Bool.not_eq_true', Bool.or_eq_true, beq_iff_eq, decide_eq_true_eq] at ha
  obtain ⟨⟨hs, hc⟩, ⟨⟨hcolon, hself⟩, hspace⟩, hgroup⟩ := ha
  unfold handleMessageReq at h
  rw [if_neg (by simp [hs])] at h
  dsimp only at h
  rw [if_neg (by simp [hc])] at h
  unfold Request.parseIgnore at h
  dsimp only at h
  rw [if_neg (by tauto), if_neg (fun h => hself h.1), if_neg (fun h => hself h.1),
    if_neg (fun h => h.elim hself hspace), if_neg (not_not.2 hgroup)] at h
  cases hi : Request.ignoredAt p.cut.indiv.toNat with
  | error f =>
    rw [hi] at h
    cases h
  | ok i =>
    rw [hi] at h
    cases hj : Request.playerAt p.cut.indiv.toNat with
    | error f =>
      simp only [Except.bind, hj, Except.map] at h
      cases h
    | ok j =>
      simp only [Except.bind, hj, Except.map, if_true] at h
      cases h
      exact ⟨_, rfl⟩

/-! ## Runs -/

/-- What the callers of `sendClientPacket` keep to: sizes are sizes of packets that fit, and are set first. -/
def lawful (s : Session) : Op → Prop
  | .send packet => 0 ≤ s.out.size packet
  | .setSize _ size => 0 ≤ size ∧ size ≤ bufSize
  | _ => True

/-- A message reaches no memory outside the tables, and nothing is pending when an ignore command is answered. -/
def ok (s : Session) : Op → Prop
  | .message now p =>
    (handleMessageReq s.world now p).isOk = true ∧
      (answersIgnore s.world now p = true → s.out.bufptr = 0 ∨ s.out.clientDead = true)
  | _ => True

/-- Nothing has been sent, whatever the network will do. -/
structure Start (s : Session) : Prop where
  handed : s.out.handed = []
  wire : s.out.wire = []
  bufptr : s.out.bufptr = 0
  fits : Fits s.out.sizes

theorem Start.intact {s : Session} (h : Start s) : Intact s.out where
  behind := by rw [h.wire, h.handed]; exact List.prefix_rfl
  whole _ := by
    unfold Output.pending
    rw [h.wire, h.handed, h.bufptr]
    rfl
  room := by rw [h.bufptr]; exact Nat.zero_le _
  fits := h.fits

theorem Intact.message {s : Session} (h : Intact s.out) {now : Int} {p : MesgCPacket} (hok : ok s (.message now p)) :
    Intact (s.message now p).out := by
  unfold Session.message
  split
  · exact h
  · dsimp only
    refine Intact.newWarnings _ _ ?_
    split
    · next ha => exact h.strcpy _ (hok.2 ha)
    · exact h

theorem intact_step (s : Session) (a : Op) (hl : lawful s a) (hok : ok s a) (h : Intact s.out) :
    Intact (step s a).out := by
  cases a with
  | send packet => exact h.sendClientPacket packet
  | setSize type size => exact h.setSize type hl.1 hl.2
  | flush fat => exact h.flush fat
  | message now p => exact h.message hok
  | comm udp mode udpOpen => exact h.congr rfl rfl rfl rfl id rfl
  | play w => exact h

/-- As long as nothing is pending whenever an ignore command is answered, the bytes on the wire are the packets
handed over for TCP, in order: a beginning of them always, all but the pending ones while the client lives, and all
of them after a flush. -/
theorem output_intact {s s' : Session} {ops : List Op} (hs : Start s)
    (hr : Run (fun s a => lawful s a ∧ ok s a) step s ops s') :
    s'.out.wire <+: s'.out.handed.flatten ∧
      (s'.out.clientDead = false → s'.out.wire ++ s'.out.pending = s'.out.handed.flatten) ∧
      ∀ fat, (s'.out.flushSockBuf fat).clientDead = false →
        (s'.out.flushSockBuf fat).wire = (s'.out.flushSockBuf fat).handed.flatten := by
  have h : Intact s'.out :=
    hr.inv (I := fun s => Intact s.out) (fun s a ha h => intact_step s a ha.1 ha.2 h) hs.intact
  refine ⟨h.behind, h.whole, fun fat halive => ?_⟩
  have hf := (h.flush fat).whole halive
  unfold Output.pending at hf
  rw [bufptr_flush _ fat halive, Cells.read_zero, List.append_nil] at hf
  exact hf

/-! ## An answer over a packet -/

instance (s : Session) : (a : Op) → Decidable (lawful s a)
  | .send packet => inferInstanceAs (Decidable (0 ≤ s.out.size packet))
  | .setSize _ size => inferInstanceAs (Decidable (0 ≤ size ∧ size ≤ bufSize))
  | .flush _ | .message .. | .comm .. | .play _ => isTrue trivial

instance (s : Session) : (a : Op) → Decidable (ok s a)
  | .message now p => inferInstanceAs (Decidable ((handleMessageReq s.world now p).isOk = true ∧
      (answersIgnore s.world now p = true → s.out.bufptr = 0 ∨ s.out.clientDead = true)))
  | .send _ | .setSize .. | .flush _ | .comm .. | .play _ => isTrue trivial

/-- A client that has just connected by TCP; of the sizes, those of `SP_WARNING`, `SP_PICKOK` and `SP_S_WARNING`. -/
def connected : Session :=
  let session : Session := default
  { session with out :=
    { session.out with sizes := fun type => if type = 10 then 84 else if type = 16 ∨ type = 42 then 4 else 0 } }

theorem connected_start : Start connected where
  handed := rfl
  wire := rfl
  bufptr := rfl
  fits := by
    refine ⟨fun type => ?_, by decide, by decide⟩
    show (if type = 10 then (84 : Int) else if type = 16 ∨ type = 42 then 4 else 0) ≤ bufSize
    have hsize : bufSize = 16738 := rfl
    split
    · omega
    · split <;> omega

/-- `SP_PICKOK`, that all is well. -/
def pickok : Packet := fun k => [16, 1].getD k 0

/-- The client asks to ignore what the player in slot 1 says to it. -/
def ignoreOne : MesgCPacket := ⟨2, 1, [':', 'I']⟩

/-- A packet is flushed before the ignore command is answered. -/
def answered : List Op := [.send pickok, .flush 0, .message 0 ignoreOne, .send pickok]

theorem output_intact_answered :
    ((answered.foldl step connected).out.flushSockBuf 0).wire =
      ((answered.foldl step connected).out.flushSockBuf 0).handed.flatten ∧
      (answered.foldl step connected).out.handed.length = 3 := by
  have hr : Run (fun s a => lawful s a ∧ ok s a) step connected answered (answered.foldl step connected) :=
    Run.of_allowedAll connected answered (by decide +kernel)
  exact ⟨(output_intact connected_start hr).2.2 0 (by decide +kernel), by decide +kernel⟩

/-- The answer to an ignore command overwrites a packet that is pending. -/
theorem output_overwritten : ¬ ∀ (s s' : Session) (ops : List Op), Start s →
    Run (fun s a => lawful s a) step s ops s' → ∀ fat, (s'.out.flushSockBuf fat).clientDead = false →
      (s'.out.flushSockBuf fat).wire = (s'.out.flushSockBuf fat).handed.flatten := by
  intro h
  have hr : Run (fun s a => lawful s a) step connected [.send pickok, .message 0 ignoreOne]
      ([Op.send pickok, .message 0 ignoreOne].foldl step connected) :=
    Run.of_allowedAll connected _ (by decide +kernel)
  have hwire := h _ _ _ connected_start hr 0 (by decide +kernel)
  exact absurd hwire (by decide +kernel)

end Netrek.Sending
