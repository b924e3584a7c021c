/-
How a stream is cut by the reads does not matter: whatever the network does, the packets that
reach the handlers are those of the stream, each once and in order, and no access is outside the
buffer. The invariant is that the unconsumed part of the buffer and the bytes not read yet
together are the packets still to come.
-/
import NetrekServer.Socket.Framing

namespace Netrek.Socket

open Netrek.Lib.Buffer

/-! ## Packets -/

theorem handlerSize_le (sw : Switches) {t : Nat} (ht : t ≤ numPackets) : handlerSize sw t ≤ 104 ∧ -1 ≤ handlerSize sw t := by
  obtain ⟨rsa, oggv, messagesAllTime⟩ := sw
  revert t
  cases rsa <;> cases oggv <;> cases messagesAllTime <;> decide

/-- Short messages are the only packets of variable length. -/
theorem variable_type (sw : Switches) {t : Nat} (h : handlerSize sw t = -1) : t = cpSMessage := by
  by_cases ht : t ≤ numPackets
  · obtain ⟨rsa, oggv, messagesAllTime⟩ := sw
    revert t
    cases rsa <;> cases oggv <;> cases messagesAllTime <;> decide
  · have hl : (handlerSizes sw).length ≤ t := by
      have : (handlerSizes sw).length = 61 := rfl
      unfold numPackets at ht
      omega
    rw [handlerSize, List.getD_eq_getElem?_getD, List.getElem?_eq_none hl] at h
    cases h

/-- A packet is at least one byte long and fits any buffer of `BUFSIZ` bytes. -/
theorem WellFormed.length {sw : Switches} {p : Packet} (h : WellFormed sw p) : 0 < p.length ∧ p.length ≤ 104 := by
  cases p with
  | nil => exact h.elim
  | cons t p =>
    obtain ⟨-, h60, -, h⟩ := h
    refine ⟨by simp, ?_⟩
    split at h
    · obtain ⟨l, -, hl, -, hle⟩ := h
      unfold sizeofMesgS at hle
      omega
    · have := (handlerSize_le sw h60).1
      omega

/-- The header of a packet tells its length, whatever follows the packet. -/
theorem WellFormed.packetLength {sw : Switches} {p : Packet} (h : WellFormed sw p) (bs : List UInt8) :
    packetLength sw (p ++ bs) = some p.length := by
  cases p with
  | nil => exact h.elim
  | cons t p =>
    obtain ⟨h1, h60, h0, h⟩ := h
    rw [List.cons_append, Socket.packetLength, if_neg (by omega)]
    split at h
    · rename_i hv
      obtain ⟨l, hl, hlen, h4, hle⟩ := h
      have hl' : (t :: (p ++ bs))[3]? = some l := by
        rw [← List.cons_append, List.getElem?_append_left]
        · exact hl
        · exact (List.getElem?_eq_some_iff.1 hl).1
      rw [if_pos hv, hl']
      simp only
      rw [if_neg (by omega), hlen]
    · rename_i hv
      rw [if_neg hv, ← h, Int.toNat_natCast]

/-- Parsing a stream of complete packets at once gives these packets. -/
theorem frames_flatten {sw : Switches} : ∀ {ps : List Packet} {n : Nat}, (∀ p ∈ ps, WellFormed sw p) → ps.length ≤ n →
    frames sw n ps.flatten = some ps
  | [], n, _, _ => by cases n <;> rfl
  | p :: ps, 0, _, h => by cases h
  | p :: ps, n + 1, hw, h => by
    have hp := hw p (List.mem_cons_self ..)
    have hlen := hp.packetLength ps.flatten
    rw [List.flatten_cons]
    have hpos := hp.length.1
    generalize hbs : p ++ ps.flatten = bs at hlen
    cases bs with
    | nil =>
      rw [List.append_eq_nil_iff] at hbs
      rw [hbs.1] at hpos
      cases hpos
    | cons b bs =>
      rw [frames, hlen]
      simp only
      rw [← hbs, if_neg (by simp), List.drop_left, List.take_left,
        frames_flatten (fun q hq => hw q (List.mem_cons_of_mem _ hq)) (by simpa using h)]
      rfl

/-! ## Handling -/

/-- What a list of packets comes to, one after the other, from a session: the calls of handlers and the session left.
Each packet is counted, and is given to the handler of its type exactly if the request is legal then. -/
inductive Serves {ω : Type} (sw : Switches) (handlers : Handlers ω) :
    Session ω → List Packet → List (Nat × Packet) → Session ω → Prop
  | done (s : Session ω) : Serves sw handlers s [] [] s
  | call {s s' : Session ω} {b : UInt8} {p : Packet} {ps : List Packet} {calls : List (Nat × Packet)}
      (hlegal : legal sw s b.toNat = true)
      (h : Serves sw handlers (handlers b.toNat (b :: p) (cancelSelfDest (countPacket s b.toNat) b.toNat)) ps calls s') :
      Serves sw handlers s ((b :: p) :: ps) ((b.toNat, b :: p) :: calls) s'
  | ignore {s s' : Session ω} {b : UInt8} {p : Packet} {ps : List Packet} {calls : List (Nat × Packet)}
      (hlegal : legal sw s b.toNat = false) (h : Serves sw handlers (countPacket s b.toNat) ps calls s') :
      Serves sw handlers s ((b :: p) :: ps) calls s'

/-- The calls are of packets of the list, each at most once and in their order. -/
theorem Serves.sublist {ω : Type} {sw : Switches} {handlers : Handlers ω} {s s' : Session ω} {ps : List Packet}
    {calls : List (Nat × Packet)} (h : Serves sw handlers s ps calls s') : (calls.map Prod.snd).Sublist ps := by
  induction h with
  | done => exact .slnil
  | call _ _ ih => exact ih.cons_cons _
  | ignore _ _ ih => exact ih.cons _

/-- The packets that are legal are handed to their handlers, in their order. -/
theorem serves_dispatch {ω : Type} (sw : Switches) (handlers : Handlers ω) : ∀ (ps : List Packet) (st : Served ω),
    (∀ p ∈ ps, p ≠ []) → ∃ calls, (ps.foldl (dispatch sw handlers) st).2 = st.2 ++ calls ∧
      Serves sw handlers st.1 ps calls (ps.foldl (dispatch sw handlers) st).1
  | [], st, _ => ⟨[], (List.append_nil _).symm, .done _⟩
  | [] :: _, _, hne => absurd rfl (hne [] (List.mem_cons_self ..))
  | (b :: p) :: ps, st, hne => by
    have ih := serves_dispatch sw handlers ps (dispatch sw handlers st (b :: p)) fun q hq => hne q (List.mem_cons_of_mem _ hq)
    obtain ⟨calls, hcalls, h⟩ := ih
    have hcount : legal sw (countPacket st.1 b.toNat) b.toNat = legal sw st.1 b.toNat := rfl
    rw [List.foldl_cons]
    unfold dispatch at hcalls h ⊢
    dsimp only at hcalls h ⊢
    rw [hcount] at hcalls h ⊢
    cases hlegal : legal sw st.1 b.toNat with
    | true =>
      rw [hlegal, if_pos rfl] at hcalls h
      rw [if_pos rfl]
      refine ⟨(b.toNat, b :: p) :: calls, ?_, .call hlegal h⟩
      rw [hcalls, List.append_assoc, List.singleton_append]
    | false =>
      rw [hlegal, if_neg Bool.false_ne_true] at hcalls h
      rw [if_neg Bool.false_ne_true]
      exact ⟨calls, hcalls, .ignore hlegal h⟩

/-! ## Reading -/

section Read

variable {ω : Type} (net : Network)

/-- `r'` has read on from `r`: only the buffer, the bytes to come and the count of reads differ. -/
structure ReadOn (r r' : Reader ω) : Prop where
  length : r'.buf.length = r.buf.length
  parsed : r'.parsed = r.parsed
  served : r'.served = r.served
  clientDead : r'.clientDead = r.clientDead
  log : r'.log = r.log

theorem ReadOn.refl (r : Reader ω) : ReadOn r r := ⟨rfl, rfl, rfl, rfl, rfl⟩

theorem ReadOn.trans {r r' r'' : Reader ω} (h : ReadOn r r') (h' : ReadOn r' r'') : ReadOn r r'' :=
  ⟨h'.length.trans h.length, h'.parsed.trans h.parsed, h'.served.trans h.served,
    h'.clientDead.trans h.clientDead, h'.log.trans h.log⟩

/-- What lies between `off` and `count` in the buffer, with what is not read yet, is `bs`. -/
structure Filled (r : Reader ω) (off count : Nat) (bs : List UInt8) : Prop where
  le : off ≤ count
  count_le : count ≤ r.buf.length
  bytes : window r.buf off count ++ r.rest = bs

/-- A read takes at least one byte and appends it to the buffer. -/
theorem read_spec {r : Reader ω} {off count n : Nat} {bs : List UInt8} (h : Filled r off count bs) (hn : 0 < n)
    (hle : count + n ≤ r.buf.length) (hr : r.rest ≠ []) :
    ∃ r' k, read net r count n = .ok (r', k) ∧ 0 < k ∧ k ≤ n ∧ Filled r' off (count + k) bs ∧ ReadOn r r' := by
  have hpos := List.length_pos_of_ne_nil hr
  obtain ⟨k, hk⟩ : ∃ k, k = min (max 1 (net.split r.reads)) (min n r.rest.length) := ⟨_, rfl⟩
  have hlen : (r.rest.take k).length = k := by rw [List.length_take]; omega
  refine ⟨{ r with buf := store r.buf count (r.rest.take k), rest := r.rest.drop k, reads := r.reads + 1 }, k, ?_, by omega,
    by omega, ⟨by have := h.le; omega, ?_, ?_⟩, ?_⟩
  · unfold read
    rw [if_neg (by omega), hk]
  · have hl : (store r.buf count (r.rest.take k)).length = r.buf.length := length_store (by omega)
    simp only [hl]
    omega
  · have hw : window (store r.buf count (r.rest.take k)) off (count + (r.rest.take k).length) =
        window r.buf off count ++ r.rest.take k := window_store h.le (by omega)
    rw [hlen] at hw
    simp only [hw]
    rw [List.append_assoc, List.take_append_drop]
    exact h.bytes
  · exact ⟨length_store (by omega), rfl, rfl, rfl, rfl⟩

/-- As long as the stream holds them, the bytes asked for are read. -/
theorem doReadRest_spec {r : Reader ω} {off count size : Nat} {bs : List UInt8} (h : Filled r off count bs)
    (hle : off + size ≤ r.buf.length) (hsize : size ≤ bs.length) :
    ∃ r' count', doReadRest net r off count size = .ok (r', count', true) ∧ Filled r' off count' bs ∧
      off + size ≤ count' ∧ ReadOn r r' := by
  unfold doReadRest
  by_cases hc : off + size ≤ count
  · rw [dif_pos hc]
    exact ⟨r, count, rfl, h, hc, .refl r⟩
  · rw [dif_neg hc]
    have hoff := h.le
    have hr : r.rest ≠ [] := by
      intro he
      have hb := congrArg List.length h.bytes
      rw [List.length_append, length_window h.count_le, he, List.length_nil] at hb
      omega
    obtain ⟨r', k, hread, hk, hkn, hf, hon⟩ :=
      read_spec net h (show 0 < size - (count - off) by omega) (by omega) hr
    rw [hread]
    simp only
    rw [dif_neg (by omega)]
    obtain ⟨r'', count'', h1, h2, h3, h4⟩ := doReadRest_spec hf (by rw [hon.length]; exact hle) hsize
    exact ⟨r'', count'', h1, h2, h3, hon.trans h4⟩
  termination_by off + size - count

variable (sw : Switches)

/-- The size of a packet is known once its header is in the buffer. -/
theorem packetSize_spec {r : Reader ω} {off count : Nat} {t : UInt8} {p bs : List UInt8}
    (h : Filled r off count (t :: p ++ bs)) (hw : WellFormed sw (t :: p)) (hle : off + 4 ≤ r.buf.length) :
    ∃ r' count', packetSize net sw r off count t.toNat = .ok (r', count', some (t :: p).length) ∧
      Filled r' off count' (t :: p ++ bs) ∧ ReadOn r r' := by
  obtain ⟨-, -, -, hlen⟩ := hw
  unfold packetSize
  by_cases hv : handlerSize sw t.toNat = -1
  · rw [if_pos hv] at hlen ⊢
    obtain ⟨l, hl, hlen, h4, h84⟩ := hlen
    have ht : t.toNat = cpSMessage := variable_type sw hv
    obtain ⟨r', count', hrest, hf, hc, hon⟩ := doReadRest_spec net h hle (by simp only [List.length_append]; omega)
    have hbyte : r'.buf[off + 3]? = some l := by
      have hget : (window r'.buf off count')[3]? = some l := by
        have hb : (window r'.buf off count' ++ r'.rest)[3]? = (t :: p ++ bs)[3]? := by rw [hf.bytes]
        rw [List.getElem?_append_left (by rw [length_window hf.count_le]; omega),
          List.getElem?_append_left (by omega)] at hb
        rw [hb]; exact hl
      unfold window at hget
      rwa [List.getElem?_take_of_lt (by omega), List.getElem?_drop] at hget
    rw [if_pos ht, hrest]
    simp only [hbyte]
    rw [if_neg (by omega), hlen]
    exact ⟨r', count', rfl, hf, hon⟩
  · rw [if_neg hv] at hlen ⊢
    refine ⟨r, count, ?_, h, .refl r⟩
    rw [← hlen, Int.toNat_natCast]

variable {bufsiz : Nat}

/-- Moving the second half of the buffer down, and reading on, lose nothing. -/
theorem shift_spec {r : Reader ω} {off count : Nat} {bs : List UInt8} (h : Filled r off count bs)
    (hlen : r.buf.length = bufsiz * 2) (hpos : 0 < bufsiz) :
    ∃ r' off' count', shift net bufsiz r off count = .ok (r', off', count', true) ∧ Filled r' off' count' bs ∧
      off' ≤ bufsiz ∧ ReadOn r r' := by
  unfold shift
  by_cases hoff : off ≤ bufsiz
  · rw [if_pos hoff]
    exact ⟨r, off, count, rfl, h, hoff, .refl r⟩
  rw [if_neg hoff, if_neg (by omega)]
  have hle := h.le
  have hcle := h.count_le
  have hmoved : ((r.buf.drop bufsiz).take bufsiz ++ r.buf.drop bufsiz).length = r.buf.length := by
    simp only [List.length_append, List.length_take, List.length_drop]
    omega
  have hon : ReadOn r { r with buf := (r.buf.drop bufsiz).take bufsiz ++ r.buf.drop bufsiz } :=
    ⟨hmoved, rfl, rfl, rfl, rfl⟩
  have hf : Filled { r with buf := (r.buf.drop bufsiz).take bufsiz ++ r.buf.drop bufsiz } (off - bufsiz)
      (count - bufsiz) bs := by
    refine ⟨by omega, by simp only [hmoved]; omega, ?_⟩
    rw [← h.bytes]
    simp only
    rw [window_moveDown (by omega) (by omega) hle hcle]
  simp only
  split
  · rename_i hfull
    subst hfull
    have hcb : bufsiz * 2 - bufsiz = bufsiz := by omega
    rw [hcb] at hf
    split
    · rename_i hready
      obtain ⟨r', k, hread, hk, hkn, hf', hon'⟩ := read_spec net hf hpos (by simp only [hmoved]; omega) hready.2
      rw [hread]
      simp only
      rw [if_neg (by omega)]
      exact ⟨r', _, _, rfl, hf', by omega, hon.trans hon'⟩
    · exact ⟨_, _, _, rfl, hf, by omega, hon⟩
  · exact ⟨_, _, _, rfl, hf, by omega, hon⟩

variable (handlers : Handlers ω)

/-- What a reader has done for the packets `ps`. -/
structure Handled (r r' : Reader ω) (ps : List Packet) : Prop where
  parsed : r'.parsed = r.parsed ++ ps
  served : r'.served = ps.foldl (dispatch sw handlers) r.served
  clientDead : r'.clientDead = r.clientDead
  log : r'.log = r.log

theorem ReadOn.handled {r r' : Reader ω} (h : ReadOn r r') : Handled sw handlers r r' [] :=
  ⟨by rw [h.parsed, List.append_nil], h.served, h.clientDead, h.log⟩

theorem Handled.trans {r r' r'' : Reader ω} {ps qs : List Packet} (h : Handled sw handlers r r' ps)
    (h' : Handled sw handlers r' r'' qs) : Handled sw handlers r r'' (ps ++ qs) :=
  ⟨by rw [h'.parsed, h.parsed, List.append_assoc], by rw [h'.served, h.served, List.foldl_append],
    h'.clientDead.trans h.clientDead, h'.log.trans h.log⟩

/-- The loop handles the packets of the stream from the first one on and stops between two
packets, with everything read handled. -/
theorem doReadLoop_spec (hbuf : 104 ≤ bufsiz) : ∀ (ps : List Packet) (fuel : Nat) (r : Reader ω) (off count : Nat),
    Filled r off count ps.flatten → r.buf.length = bufsiz * 2 → off ≤ bufsiz → (∀ p ∈ ps, WellFormed sw p) →
    ps.length < fuel →
    ∃ r' ps1 ps2, doReadLoop net sw bufsiz handlers fuel r off count = .ok (r', true) ∧ ps = ps1 ++ ps2 ∧
      r'.rest = ps2.flatten ∧ Handled sw handlers r r' ps1 ∧ (off < count → ps1 ≠ [])
  | _, 0, _, _, _, _, _, _, _, hfuel => by cases hfuel
  | ps, fuel + 1, r, off, count, h, hlen, hoff, hw, hfuel => by
    unfold doReadLoop
    by_cases hc : count ≤ off
    · rw [if_pos hc]
      refine ⟨r, [], ps, rfl, rfl, ?_, (ReadOn.refl r).handled sw handlers, by omega⟩
      have hb := h.bytes
      rwa [show count = off by have := h.le; omega, window_self, List.nil_append] at hb
    rw [if_neg hc]
    cases ps with
    | nil =>
      -- something is in the buffer, so that a packet is to come
      have hb := congrArg List.length h.bytes
      rw [List.length_append, length_window h.count_le, List.flatten_nil, List.length_nil] at hb
      omega
    | cons p ps =>
      have hp := hw p (List.mem_cons_self ..)
      have hpl := hp.length
      cases p with
      | nil => exact hp.elim
      | cons t p =>
        rw [List.flatten_cons] at h
        have hbyte : r.buf[off]? = some t := by
          rw [getElem?_off (show off < count by omega)]
          have hb := h.bytes
          have hne : window r.buf off count ≠ [] := by
            intro he
            have := @length_window _ _ off _ h.count_le
            rw [he, List.length_nil] at this
            omega
          obtain ⟨c, cs, hcs⟩ := List.exists_cons_of_ne_nil hne
          rw [hcs] at hb ⊢
          simp only [List.cons_append, List.cons.injEq] at hb
          rw [hb.1]; rfl
        have ht : ¬ (t.toNat < 1 ∨ numPackets < t.toNat ∨ handlerSize sw t.toNat = 0) := by
          obtain ⟨h1, h2, h3, -⟩ := hp
          omega
        obtain ⟨r1, c1, hsz, hf1, hon1⟩ := packetSize_spec net sw h hp (by omega)
        obtain ⟨r2, c2, hrd, hf2, hc2, hon2⟩ := doReadRest_spec net hf1
          (show off + (t :: p).length ≤ r1.buf.length by rw [hon1.length]; omega) (by rw [List.length_append]; omega)
        have hlen2 : r2.buf.length = bufsiz * 2 := by rw [hon2.length, hon1.length, hlen]
        -- the bytes given to the handler are the packet
        have hpk : (r2.buf.drop off).take (t :: p).length = t :: p := by
          rw [← window_take (show (t :: p).length ≤ c2 - off by omega)]
          have hb := congrArg (List.take (t :: p).length) hf2.bytes
          rwa [List.take_left, List.take_append_of_le_length (by rw [length_window hf2.count_le]; omega)] at hb
        have hf3 : Filled { r2 with served := dispatch sw handlers r2.served (t :: p), parsed := r2.parsed ++ [t :: p] }
            (off + (t :: p).length) c2 ps.flatten := by
          refine ⟨hc2, hf2.count_le, ?_⟩
          simp only
          have hb := congrArg (List.drop (t :: p).length) hf2.bytes
          rw [List.drop_left, List.drop_append_of_le_length (by rw [length_window hf2.count_le]; omega)] at hb
          rw [window_drop, hb]
        obtain ⟨r4, o4, c4, hsh, hf4, ho4, hon4⟩ := shift_spec net hf3 hlen2 (by omega)
        obtain ⟨r', ps1, ps2, hloop, hps, hrest, hh, -⟩ := doReadLoop_spec hbuf ps fuel r4 o4 c4 hf4
          (by rw [hon4.length]; exact hlen2) ho4 (fun q hq => hw q (List.mem_cons_of_mem _ hq)) (by simpa using hfuel)
        refine ⟨r', (t :: p) :: ps1, ps2, ?_, by rw [hps]; rfl, hrest, ?_, by simp⟩
        · simp only [hbyte, hsz, hrd, hpk, hsh]
          rw [if_neg ht, if_neg (by omega)]
          exact hloop
        · refine ⟨?_, ?_, ?_, ?_⟩
          · rw [hh.parsed, hon4.parsed, List.append_assoc, List.singleton_append, hon2.parsed, hon1.parsed]
          · rw [hh.served, hon4.served, List.foldl_cons, hon2.served, hon1.served]
          · rw [hh.clientDead, hon4.clientDead, hon2.clientDead, hon1.clientDead]
          · rw [hh.log, hon4.log, hon2.log, hon1.log]

/-- One `doRead` handles at least one packet and leaves the stream between two packets. -/
theorem doRead_spec (hbuf : 104 ≤ bufsiz) {ps : List Packet} {fuel : Nat} {r : Reader ω} (hrest : r.rest = ps.flatten)
    (hne : r.rest ≠ []) (hw : ∀ p ∈ ps, WellFormed sw p) (hfuel : ps.length < fuel) :
    ∃ r' ps1 ps2, doRead net sw bufsiz handlers fuel r = .ok (r', true) ∧ ps = ps1 ++ ps2 ∧ r'.rest = ps2.flatten ∧
      Handled sw handlers r r' ps1 ∧ ps1 ≠ [] := by
  have hlen : ((List.range (bufsiz * 2)).map (net.stack r.reads)).length = bufsiz * 2 := by simp
  have hon : Handled sw handlers r { r with buf := (List.range (bufsiz * 2)).map (net.stack r.reads) } [] :=
    ⟨(List.append_nil _).symm, rfl, rfl, rfl⟩
  have hf : Filled { r with buf := (List.range (bufsiz * 2)).map (net.stack r.reads) } 0 0 ps.flatten := by
    refine ⟨le_refl _, Nat.zero_le _, ?_⟩
    rw [window_self, List.nil_append]
    exact hrest
  obtain ⟨r1, k, hread, hk, -, hf1, hon1⟩ := read_spec net hf (show 0 < bufsiz * 2 by omega) (by simp only [hlen]; omega) hne
  rw [Nat.zero_add] at hf1
  obtain ⟨r', ps1, ps2, hloop, hps, hrest', hh, hne1⟩ := doReadLoop_spec net sw handlers hbuf ps fuel r1 0 k hf1
    (by rw [hon1.length]; exact hlen) (Nat.zero_le _) hw hfuel
  refine ⟨r', ps1, ps2, ?_, hps, hrest', ?_, hne1 hk⟩
  · unfold doRead
    rw [hread]
    simp only
    rw [if_neg (by omega)]
    exact hloop
  · exact (hon.trans sw handlers (hon1.handled sw handlers)).trans sw handlers hh

/-- Every packet sent is handled, in order, and nothing is left. -/
theorem serve_spec (hbuf : 104 ≤ bufsiz) (fuel : Nat) : ∀ (n : Nat) (ps : List Packet) (r : Reader ω),
    r.rest = ps.flatten → r.clientDead = false → (∀ p ∈ ps, WellFormed sw p) → ps.length < fuel → ps.length < n →
    ∃ r', serve net sw bufsiz handlers fuel n r = .ok r' ∧ r'.rest = [] ∧ Handled sw handlers r r' ps
  | 0, _, _, _, _, _, _, hn => by cases hn
  | n + 1, ps, r, hrest, hdead, hw, hfuel, hn => by
    unfold serve
    by_cases hr : r.rest = []
    · rw [if_pos hr]
      have hnil : ps = [] := by
        cases ps with
        | nil => rfl
        | cons p ps =>
          rw [hr, List.flatten_cons] at hrest
          have := (hw p (List.mem_cons_self ..)).length.1
          rw [List.append_eq_nil_iff.1 hrest.symm |>.1] at this
          cases this
      subst hnil
      exact ⟨r, rfl, hr, (ReadOn.refl r).handled sw handlers⟩
    · obtain ⟨r1, ps1, ps2, hread, rfl, hrest1, hh, hne1⟩ := doRead_spec net sw handlers hbuf hrest hr hw hfuel
      have hlt : ps2.length < (ps1 ++ ps2).length := by
        have := List.length_pos_of_ne_nil hne1
        rw [List.length_append]
        omega
      obtain ⟨r', hserve, hr', hh'⟩ := serve_spec hbuf fuel n ps2 r1 hrest1 (hh.clientDead.trans hdead)
        (fun p hp => hw p (List.mem_append_right _ hp)) (by omega) (by omega)
      refine ⟨r', ?_, hr', hh.trans sw handlers hh'⟩
      have hfrom : readFromClient net sw bufsiz handlers fuel r = .ok (r1, true) := by
        unfold readFromClient
        rw [hdead, if_neg hr]
        exact hread
      rw [if_neg hr, hfrom]
      exact hserve

end Read

theorem length_le_flatten {sw : Switches} : ∀ {ps : List Packet}, (∀ p ∈ ps, WellFormed sw p) → ps.length ≤ ps.flatten.length
  | [], _ => le_refl _
  | p :: ps, hw => by
    have h1 := (hw p (List.mem_cons_self ..)).length.1
    have h2 := length_le_flatten fun q hq => hw q (List.mem_cons_of_mem _ hq)
    simp only [List.length_cons, List.flatten_cons, List.length_append]
    omega

/-- A reader at the start of a connection's stream, with the session and the calls so far. -/
def Reader.fresh {ω : Type} (stream : List UInt8) (buf : List UInt8) (served : Served ω) : Reader ω :=
  { rest := stream, reads := 0, buf := buf, parsed := [], served := served, clientDead := false, log := [] }

/-- Whatever the network does and whatever the buffer held, a stream of complete packets is parsed
into the packets one gets by parsing it at once; the handlers are called with those of a legal type, in order, each
once; nothing is left over and no access is outside the buffer. -/
theorem serve_stream {ω : Type} (sw : Switches) (handlers : Handlers ω) {bufsiz : Nat} (hbuf : 256 ≤ bufsiz)
    (net : Network) {stream : List UInt8} {ps : List Packet} (hs : stream = ps.flatten)
    (hw : ∀ p ∈ ps, WellFormed sw p) (buf : List UInt8) (served : Served ω) :
    frames sw stream.length stream = some ps ∧
    ∃ r calls, serve net sw bufsiz handlers (stream.length + 1) (stream.length + 1) (.fresh stream buf served) = .ok r ∧
      r.rest = [] ∧ r.parsed = ps ∧ r.served.2 = served.2 ++ calls ∧ Serves sw handlers served.1 ps calls r.served.1 ∧
      (calls.map Prod.snd).Sublist ps ∧ r.clientDead = false ∧ r.log = [] := by
  have hle := length_le_flatten hw
  subst hs
  refine ⟨frames_flatten hw hle, ?_⟩
  obtain ⟨r, hserve, hr, hh⟩ := serve_spec net sw handlers (show 104 ≤ bufsiz by omega) (ps.flatten.length + 1)
    (ps.flatten.length + 1) ps
    (.fresh ps.flatten buf served) rfl rfl hw (show ps.length < ps.flatten.length + 1 by omega) (by omega)
  obtain ⟨calls, hcalls, hserves⟩ := serves_dispatch sw handlers ps served fun p hp hnil => by
    rw [hnil] at hp
    exact absurd (hw [] hp).length.1 (by simp)
  have hserved : r.served = ps.foldl (dispatch sw handlers) served := hh.served
  rw [← hserved] at hcalls hserves
  exact ⟨r, calls, hserve, hr, hh.parsed, hcalls, hserves, hserves.sublist, hh.clientDead, hh.log⟩

/-- A player who changes whom he is at war with: his speed packet is ignored and his request for updates is not, read
three bytes at a time. -/
theorem serve_stream_at_war :
    let sw : Switches := ⟨false, true, true⟩
    let net : Network := ⟨fun _ => 3, fun _ => false, fun _ _ => 0⟩
    let served : Served Nat := (⟨fun _ => true, some ⟨false, pfWar⟩, fun _ => 0, 0⟩, [])
    let handlers : Handlers Nat := fun t _ s => { s with world := s.world + t }
    let ps : List Packet := [[2, 9, 0, 0], [31, 0, 0, 0, 0, 0, 0, 5]]
    frames sw 12 ps.flatten = some ps ∧
    ∃ r, serve net sw 256 handlers 13 13 (.fresh ps.flatten [] served) = .ok r ∧ r.rest = [] ∧ r.parsed = ps ∧
      r.served.2 = [(31, [31, 0, 0, 0, 0, 0, 0, 5])] ∧ r.served.1.world = 31 ∧ r.clientDead = false ∧ r.log = [] := by
  intro sw net served handlers ps
  have hw : ∀ p ∈ ps, WellFormed sw p := by
    intro p hp
    simp only [ps, List.mem_cons, List.not_mem_nil, or_false] at hp
    rcases hp with rfl | rfl <;> (unfold WellFormed; decide)
  obtain ⟨hframes, r, calls, hserve, hrest, hparsed, hcalls, hserves, -, hdead, hlog⟩ :=
    @serve_stream Nat sw handlers 256 (le_refl 256) net _ ps rfl hw [] served
  refine ⟨hframes, r, hserve, hrest, hparsed, ?_⟩
  rw [hcalls]
  generalize r.served.1 = s at hserves ⊢
  replace hserves : Serves sw handlers served.1 [[2, 9, 0, 0], [31, 0, 0, 0, 0, 0, 0, 5]] calls s := hserves
  cases hserves with
  | call hlegal => exact absurd hlegal (by decide)
  | ignore _ h =>
    cases h with
    | call _ h =>
      cases h with
      | done => exact ⟨rfl, rfl, hdead, hlog⟩
    | ignore hlegal => exact absurd hlegal (by decide)

end Netrek.Socket
