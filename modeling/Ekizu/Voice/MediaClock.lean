import Ekizu.Voice.SenderLoop
import Mathlib.Data.List.InsertIdx

/-!
# The media clock

Each packet moves the RTP timestamp and `next_send_time` on by what
`opus_packet_get_samples_per_frame` says: the samples of one frame, the time in
whole milliseconds.  `Metered` is a sender with the one loop that sends, the packets
the loop is done with, and the packet whose datagram is in flight.

## Main results

* `moves_step` — a step leaves both clocks alone or moves them on by one packet.
* `accurate_iff` — the clocks follow the samples that were sent exactly when every
  packet holds one frame, and not one of 2.5 ms.
* `accurate_twoFrames` — a packet with two frames.
-/

namespace Ekizu.Voice

open Dave Lib.Runs

/-! ## Opus packets -/

/-- The TOC byte. -/
def toc (data : Bytes) : UInt8 := data.headD 0

/-- The samples of one frame at 48 kHz, by the configuration in the TOC byte. -/
def samplesPerFrame (toc : UInt8) : Nat :=
  let config := toc.toNat / 8
  if config < 12 then
    -- SILK
    match config % 4 with
    | 0 => 480
    | 1 => 960
    | 2 => 1920
    | _ => 2880
  else if config < 16 then
    -- SILK and CELT
    if config % 2 = 0 then 480 else 960
  else
    -- CELT
    match config % 4 with
    | 0 => 120
    | 1 => 240
    | 2 => 480
    | _ => 960

/-- The number of frames, by the code in the TOC byte. -/
def framesPerPacket : Bytes → Option Nat
  | [] => none
  | toc :: rest =>
      match toc.toNat % 4 with
      | 0 => some 1
      | 1 | 2 => some 2
      | _ =>
          match rest with
          | [] => none
          | count :: _ => if count.toNat % 64 = 0 then none else some (count.toNat % 64)

/-- The samples of a packet, which holds at most 120 ms.  The lengths of the frames do
not matter here, so that more than the valid packets have samples. -/
def packetSamples (data : Bytes) : Option Nat :=
  (framesPerPacket data).bind fun frames =>
    let samples := frames * samplesPerFrame (toc data)
    if samples ≤ 5760 then some samples else none

/-- One frame, and not one of 2.5 ms. -/
def OneWholeFrame (data : Bytes) : Prop :=
  framesPerPacket data = some 1 ∧ samplesPerFrame (toc data) ≠ 120

instance (data : Bytes) : Decidable (OneWholeFrame data) :=
  inferInstanceAs (Decidable (_ ∧ _))

/-- All frames but those of 2.5 ms last a number of milliseconds. -/
theorem samplesPerFrame_cases (toc : UInt8) :
    samplesPerFrame toc = 120 ∨
      0 < samplesPerFrame toc ∧ samplesPerFrame toc % 48 = 0 ∧ samplesPerFrame toc ≤ 2880 := by
  unfold samplesPerFrame
  dsimp only
  split
  · split <;> decide
  · split
    · split <;> decide
    · split <;> decide

/-- What `maintain_sync` adds to both clocks is what the packet holds exactly when it
holds one frame of whole milliseconds. -/
theorem advance_iff {data : Bytes} {samples : Nat} (hsamples : packetSamples data = some samples) :
    UInt32.ofNat (samplesPerFrame (toc data)) = UInt32.ofNat samples ∧
        milliseconds (samplesPerFrame (toc data) * 1000 / sampleRate : Nat) * 48000 =
          samples * 1000000000 ↔
      OneWholeFrame data := by
  obtain ⟨frames, hframes, hsome⟩ := Option.bind_eq_some_iff.mp hsamples
  dsimp only at hsome
  split at hsome
  · next hmax =>
      obtain rfl := Option.some.inj hsome
      unfold OneWholeFrame milliseconds sampleRate
      rw [hframes, Option.some_inj]
      rcases samplesPerFrame_cases (toc data) with hshort | ⟨hpositive, hwhole, -⟩
      · rw [hshort]
        constructor
        · rintro ⟨-, htime⟩
          push_cast at htime
          omega
        · rintro ⟨-, hlong⟩
          exact absurd rfl hlong
      · generalize samplesPerFrame (toc data) = n at hpositive hwhole
        obtain ⟨k, rfl⟩ := Nat.dvd_of_mod_eq_zero hwhole
        have hduration : 48 * k * 1000 / 48000 = k := by omega
        rw [hduration]
        constructor
        · rintro ⟨-, htime⟩
          have hone : frames * k = 1 * k := by
            push_cast at htime
            lia
          exact ⟨Nat.eq_of_mul_eq_mul_right (by omega) hone, by omega⟩
        · rintro ⟨rfl, -⟩
          constructor
          · rw [Nat.one_mul]
          · push_cast
            ring
  · cases hsome

/-! ## The loops of a sender and their packets -/

namespace SenderState

variable {W : Setting} {H : Type}

/-- The loops there are. -/
def loops (s : SenderState W H) : List SenderLoop :=
  s.posted ++ s.receiving ++ s.handed.map Prod.fst ++ s.waits.map Prod.fst ++
    s.expired.map Prod.fst ++ s.sending.map Prod.fst

/-- The packets that wait to be sent. -/
def packets (s : SenderState W H) : List AudioPacket :=
  s.queue ++ s.handed.map Prod.snd ++ s.waits.map Prod.snd ++ s.expired.map Prod.snd

variable {s : SenderState W H} {loop op : SenderLoop}

/-- No loop but this one. -/
def Sole (s : SenderState W H) (op : SenderLoop) : Prop := s.loops = [] ∨ s.loops = [op]

/-- Where one loop is taken out, it was the only one. -/
theorem Sole.taken (h : s.Sole op) {rest : List SenderLoop} (hmem : loop ∈ s.loops)
    (hlength : s.loops.length = rest.length + 1) : loop = op ∧ rest = [] := by
  rcases h with hnone | hone
  · rw [hnone] at hmem
    cases hmem
  · rw [hone] at hmem hlength
    refine ⟨List.mem_singleton.mp hmem, List.eq_nil_of_length_eq_zero ?_⟩
    simp only [List.length_cons, List.length_nil] at hlength
    omega

/-- A list without one of its entries. -/
private theorem mem_of_erased {α β : Type} {l : List α} {i : Nat} {f : α → β} {b : β}
    (h : b ∈ (l.eraseIdx i).map f) : b ∈ l.map f :=
  List.map_subset f List.eraseIdx_subset h

theorem Sole.posted (h : s.Sole op) {i : Nat} (hfound : s.posted[i]? = some loop) :
    loop = op ∧ { s with posted := s.posted.eraseIdx i }.loops = [] := by
  apply h.taken
  · simp [loops, List.mem_of_getElem? hfound]
  · simp only [loops, List.length_append, length_of_getElem? hfound]
    omega

theorem Sole.handed (h : s.Sole op) {i : Nat} {packet : AudioPacket}
    (hfound : s.handed[i]? = some (loop, packet)) :
    loop = op ∧ { s with handed := s.handed.eraseIdx i }.loops = [] := by
  apply h.taken
  · simp only [loops, List.mem_append, List.mem_map]
    exact .inl (.inl (.inl (.inr ⟨_, List.mem_of_getElem? hfound, rfl⟩)))
  · simp only [loops, List.length_append, List.length_map, length_of_getElem? hfound]
    omega

theorem Sole.expired (h : s.Sole op) {i : Nat} {packet : AudioPacket}
    (hfound : s.expired[i]? = some (loop, packet)) :
    loop = op ∧ { s with expired := s.expired.eraseIdx i }.loops = [] := by
  apply h.taken
  · simp only [loops, List.mem_append, List.mem_map]
    exact .inl (.inr ⟨_, List.mem_of_getElem? hfound, rfl⟩)
  · simp only [loops, List.length_append, List.length_map, length_of_getElem? hfound]
    omega

theorem Sole.sending (h : s.Sole op) {i frameCount : Nat}
    (hfound : s.sending[i]? = some (loop, frameCount)) :
    loop = op ∧ { s with sending := s.sending.eraseIdx i }.loops = [] := by
  apply h.taken
  · simp only [loops, List.mem_append, List.mem_map]
    exact .inr ⟨_, List.mem_of_getElem? hfound, rfl⟩
  · simp only [loops, List.length_append, List.length_map, length_of_getElem? hfound]
    omega

/-- A packet that a loop takes is one of those that wait; so are those it leaves. -/
theorem packets_handed {i : Nat} {packet : AudioPacket}
    (hfound : s.handed[i]? = some (loop, packet)) :
    packet ∈ s.packets ∧
      ∀ other ∈ { s with handed := s.handed.eraseIdx i }.packets, other ∈ s.packets := by
  constructor
  · simp only [packets, List.mem_append, List.mem_map]
    exact .inl (.inl (.inr ⟨_, List.mem_of_getElem? hfound, rfl⟩))
  · intro other hother
    simp only [packets, List.mem_append] at hother ⊢
    rcases hother with ((hqueue | hhanded) | hwaits) | hexpired
    · exact .inl (.inl (.inl hqueue))
    · exact .inl (.inl (.inr (mem_of_erased hhanded)))
    · exact .inl (.inr hwaits)
    · exact .inr hexpired

theorem packets_expired {i : Nat} {packet : AudioPacket}
    (hfound : s.expired[i]? = some (loop, packet)) :
    packet ∈ s.packets ∧
      ∀ other ∈ { s with expired := s.expired.eraseIdx i }.packets, other ∈ s.packets := by
  constructor
  · simp only [packets, List.mem_append, List.mem_map]
    exact .inr ⟨_, List.mem_of_getElem? hfound, rfl⟩
  · intro other hother
    simp only [packets, List.mem_append] at hother ⊢
    rcases hother with hbefore | hexpired
    · exact .inl hbefore
    · exact .inr (mem_of_erased hexpired)

/-- Loops that end leave no other. -/
theorem Sole.of_sublist {s' : SenderState W H} (h : s.Sole op)
    (hsublist : s'.loops.Sublist s.loops) : s'.Sole op := by
  rcases h with hnone | hone
  · rw [hnone] at hsublist
    exact .inl (List.sublist_nil.mp hsublist)
  · rw [hone] at hsublist
    exact List.sublist_singleton.mp hsublist

/-- Loops may change places. -/
theorem Sole.of_perm {s' : SenderState W H} (h : s.Sole op)
    (hperm : s'.loops.Perm s.loops) : s'.Sole op := by
  rcases h with hnone | hone
  · rw [hnone] at hperm
    exact .inl (List.perm_nil.mp hperm)
  · rw [hone] at hperm
    exact .inr (List.perm_singleton.mp hperm)

theorem sole_stepLoop (h : s.loops = []) (loop : SenderLoop) : (s.stepLoop loop).Sole loop := by
  unfold stepLoop
  split
  · exact .inl h
  · split
    · refine .inr ?_
      simp only [loops, List.append_eq_nil_iff] at h ⊢
      obtain ⟨⟨⟨⟨⟨hposted, hreceiving⟩, hhanded⟩, hwaits⟩, hexpired⟩, hsending⟩ := h
      simp [hposted, hreceiving, hhanded, hwaits, hexpired, hsending]
    · refine .inr ?_
      simp only [loops, List.append_eq_nil_iff] at h ⊢
      obtain ⟨⟨⟨⟨⟨hposted, hreceiving⟩, hhanded⟩, hwaits⟩, hexpired⟩, hsending⟩ := h
      simp [hposted, hreceiving, hhanded, hwaits, hexpired, hsending]

theorem packets_stepLoop (s : SenderState W H) (loop : SenderLoop) :
    ∀ packet ∈ (s.stepLoop loop).packets, packet ∈ s.packets := by
  unfold stepLoop
  split
  · simp
  · split
    · simp [packets]
    · next hqueue =>
        intro packet hpacket
        simp only [packets, hqueue, List.map_append, List.mem_append, List.map_cons, List.map_nil,
          List.mem_cons, List.not_mem_nil] at hpacket ⊢
        tauto

theorem sole_datagramSent (h : s.loops = []) (loop : SenderLoop) (frameCount : Nat)
    (ok : Bool) :
    (s.datagramSent loop frameCount ok).Sole
      ({ loop with
        consecutiveFailures := if ok then 0 else loop.consecutiveFailures + 1 }.maintainSync
          frameCount) := by
  simp only [datagramSent]
  by_cases hends : ok = false ∧ 10 ≤ (if ok then 0 else loop.consecutiveFailures + 1)
  · rw [if_pos hends]
    exact .inl h
  · rw [if_neg hends]
    exact sole_stepLoop h _

theorem packets_datagramSent (s : SenderState W H) (loop : SenderLoop) (frameCount : Nat)
    (ok : Bool) :
    ∀ packet ∈ (s.datagramSent loop frameCount ok).packets, packet ∈ s.packets := by
  simp only [datagramSent]
  by_cases hends : ok = false ∧ 10 ≤ (if ok then 0 else loop.consecutiveFailures + 1)
  · rw [if_pos hends]
    exact fun _ hpacket => hpacket
  · rw [if_neg hends]
    exact packets_stepLoop s _

theorem packets_enqueue (s : SenderState W H) (packet : AudioPacket) :
    ∀ other ∈ (s.enqueue packet).packets, other = packet ∨ other ∈ s.packets := by
  intro other hother
  unfold enqueue at hother
  split at hother
  · simp only [packets, List.mem_append, List.mem_cons, List.not_mem_nil] at hother ⊢
    tauto
  · simp only [packets, List.map_append, List.mem_append, List.map_cons, List.map_nil,
      List.mem_cons, List.not_mem_nil] at hother ⊢
    tauto

theorem loops_enqueue (s : SenderState W H) (packet : AudioPacket) :
    (s.enqueue packet).loops.Perm s.loops := by
  unfold enqueue
  split
  · exact .refl _
  · next loop receiving hreceiving =>
      simp only [loops, hreceiving, List.map_append, List.map_cons, List.map_nil]
      rw [List.perm_iff_count]
      intro other
      simp only [List.count_append, List.count_cons, List.count_nil]
      omega

theorem loops_stopSender (s : SenderState W H) : s.stopSender.loops.Sublist s.loops := by
  have hends : (s.posted ++ [] ++ s.handed.map Prod.fst ++ []).Sublist
      (s.posted ++ s.receiving ++ s.handed.map Prod.fst ++ s.waits.map Prod.fst) := by
    refine .append (.append (.append (.refl _) ?_) (.refl _)) ?_
    · exact List.nil_sublist _
    · exact List.nil_sublist _
  exact (hends.append (.refl _)).append (.refl _)

theorem packets_stopSender (s : SenderState W H) :
    ∀ packet ∈ s.stopSender.packets, packet ∈ s.packets := by
  intro packet hpacket
  simp only [packets, stopSender, List.mem_append, List.map_nil, List.not_mem_nil]
    at hpacket ⊢
  tauto

variable [HashRatchet H]

/-- What a loop does with the packet it sends: without a socket it drops the packet and
ends; else the packet is done with at once, or its datagram is in flight. -/
theorem send_cases {s' : SenderState W H} {packet : AudioPacket}
    (hsend : s.send loop packet = some s') :
    ∃ connection, s.connection.step (.audio packet) = some connection ∧
      ((s.connection.udp = false ∧ connection.datagrams = s.connection.datagrams ∧
          connection.rtpTimestamp = s.connection.rtpTimestamp ∧ s' = { s with connection }) ∨
        (s.connection.udp ≠ false ∧ connection.datagrams = s.connection.datagrams ∧
          connection.rtpTimestamp =
            s.connection.rtpTimestamp + UInt32.ofNat packet.frameCount ∧
          s' = { s with connection }.stepLoop (loop.maintainSync packet.frameCount)) ∨
        (s.connection.udp ≠ false ∧
          connection.datagrams = s.connection.datagrams ++ [packet.frameCount] ∧
          connection.rtpTimestamp = s.connection.rtpTimestamp ∧
          s' = { s with
            connection, sending := s.sending ++ [(loop, packet.frameCount)] })) := by
  obtain ⟨connection, hconnection, hrest⟩ := Option.bind_eq_some_iff.mp hsend
  refine ⟨connection, hconnection, ?_⟩
  dsimp only at hrest
  rcases audio_cases hconnection with ⟨hudp, -, hdatagrams, htimestamp⟩ |
    ⟨hudp, -, hdatagrams, htimestamp⟩ | ⟨hudp, -, hdatagrams, htimestamp⟩
  · rw [if_pos hudp] at hrest
    exact .inl ⟨hudp, hdatagrams, htimestamp, (Option.some.inj hrest).symm⟩
  · rw [if_neg hudp, if_pos (by rw [hdatagrams])] at hrest
    exact .inr (.inl ⟨hudp, hdatagrams, htimestamp, (Option.some.inj hrest).symm⟩)
  · rw [if_neg hudp, if_neg (by simp [hdatagrams])] at hrest
    exact .inr (.inr ⟨hudp, hdatagrams, htimestamp, (Option.some.inj hrest).symm⟩)

/-- The UDP sends of the connection are those of the loops. -/
def InFlight (s : SenderState W H) : Prop :=
  s.connection.datagrams = s.sending.map Prod.snd

theorem inFlight_send {s' : SenderState W H} {packet : AudioPacket} (h : s.InFlight)
    (hsend : s.send loop packet = some s') : s'.InFlight := by
  obtain ⟨connection, -, hcases⟩ := send_cases hsend
  rcases hcases with ⟨-, hdatagrams, -, rfl⟩ | ⟨-, hdatagrams, -, rfl⟩ |
    ⟨-, hdatagrams, -, rfl⟩
  · exact hdatagrams.trans h
  · obtain ⟨hconnection, -, hsending, -⟩ :=
      stepLoop_spec { s with connection } (loop.maintainSync packet.frameCount)
    unfold InFlight
    rw [hconnection, hsending]
    exact hdatagrams.trans h
  · show connection.datagrams = (s.sending ++ [(loop, packet.frameCount)]).map Prod.snd
    rw [hdatagrams, h, List.map_append]
    rfl

theorem inFlight_step {s' : SenderState W H} {e : SenderEvent W} (h : s.InFlight)
    (hstep : s.step e = some s') : s'.InFlight := by
  cases e with
  | connection event now =>
      obtain ⟨haudio, hsent, connection, hconnection, hrest⟩ := step_event hstep
      obtain ⟨-, hdatagrams, -⟩ := packets_step hconnection haudio hsent
      have hkept := hdatagrams.trans h
      split at hrest
      · obtain rfl := Option.some.inj hrest
        exact hkept
      · split at hrest
        · obtain rfl := Option.some.inj hrest
          exact hkept
        · obtain rfl := Option.some.inj hrest
          exact hkept
  | sendOpus data samples =>
      simp only [step, sendOpus] at hstep
      split at hstep
      · obtain rfl := Option.some.inj hstep
        exact h
      · split at hstep
        · simp at hstep
        · obtain rfl := Option.some.inj hstep
          obtain ⟨hconnection, -, hsending, -⟩ := enqueue_spec
            { s with connection :=
              { s.connection with pendingFrames := s.connection.pendingFrames + 1 } }
            ⟨data, samples.toNat⟩
          unfold InFlight
          rw [hconnection, hsending]
          exact h
  | sendCancelled =>
      simp only [step] at hstep
      split at hstep
      · simp at hstep
      · obtain rfl := Option.some.inj hstep
        exact h
  | loopStarted i =>
      obtain ⟨loop, -, hrest⟩ := Option.bind_eq_some_iff.mp hstep
      obtain rfl := Option.some.inj hrest
      obtain ⟨hconnection, -, hsending, -⟩ :=
        stepLoop_spec { s with posted := s.posted.eraseIdx i } loop
      unfold InFlight
      rw [hconnection, hsending]
      exact h
  | received i now =>
      obtain ⟨⟨loop, packet⟩, -, hrest⟩ := Option.bind_eq_some_iff.mp hstep
      dsimp only [process] at hrest
      split at hrest
      · split at hrest
        · simp at hrest
        · obtain rfl := Option.some.inj hrest
          exact h
      · exact inFlight_send (s := { s with handed := s.handed.eraseIdx i }) h hrest
  | timerExpired =>
      simp only [step] at hstep
      split at hstep
      · simp at hstep
      · obtain rfl := Option.some.inj hstep
        exact h
  | waited i =>
      obtain ⟨⟨loop, packet⟩, -, hrest⟩ := Option.bind_eq_some_iff.mp hstep
      exact inFlight_send (s := { s with expired := s.expired.eraseIdx i }) h hrest
  | waitAborted i =>
      obtain ⟨entry, -, hrest⟩ := Option.bind_eq_some_iff.mp hstep
      obtain rfl := Option.some.inj hrest
      exact h
  | datagramSent i ok =>
      obtain ⟨⟨loop, frameCount⟩, -, hrest⟩ := Option.bind_eq_some_iff.mp hstep
      obtain ⟨connection, hconnection, hrest⟩ := Option.bind_eq_some_iff.mp hrest
      obtain rfl := Option.some.inj hrest
      obtain ⟨-, hlink⟩ := Connection.step_link hconnection
      have hdatagrams : connection.datagrams = s.connection.datagrams.eraseIdx i :=
        congrArg Link.datagrams hlink
      obtain ⟨hconnection', -, hsending, -⟩ := datagramSent_spec
        { s with connection, sending := s.sending.eraseIdx i } loop frameCount ok
      unfold InFlight
      rw [hconnection', hsending]
      show connection.datagrams = (s.sending.eraseIdx i).map Prod.snd
      rw [hdatagrams, h, List.eraseIdx_map]
  | flush =>
      obtain rfl := Option.some.inj hstep
      exact h
  | flushCheck =>
      simp only [step] at hstep
      split at hstep
      · simp at hstep
      · obtain rfl := Option.some.inj hstep
        split
        · exact h
        · exact h

theorem inFlight_of_reachable (h : (machine W H).Reachable s) : s.InFlight :=
  h.invariant (m := machine W H) (P := InFlight) rfl inFlight_step

end SenderState

/-! ## What a loop has sent -/

/-- A sender, its loop as the last handler left it, the packet whose datagram is in
flight, and the packets the loop is done with. -/
structure Metered (W : Setting) (H : Type) where
  sender : SenderState W H
  op : SenderLoop
  flying : Option AudioPacket := none
  sent : List AudioPacket := []

namespace Metered

variable {W : Setting} {H : Type}

/-- The samples of the packets that were sent. -/
def samples (m : Metered W H) : Nat :=
  (m.sent.map fun packet => (packetSamples packet.encoded).getD 0).sum

/-- A loop has gone on to `sender` in `send`. -/
def handOver (m : Metered W H) (sender : SenderState W H) (op : SenderLoop)
    (packet : AudioPacket) : Metered W H :=
  let c := m.sender.connection
  if c.udp = false then { m with sender, op }
  else if sender.connection.datagrams.length = c.datagrams.length then
    { m with
      sender, op := op.maintainSync packet.frameCount, sent := m.sent ++ [packet] }
  else { m with sender, op, flying := some packet }

variable [HashRatchet H]

/-- A step of the sender. -/
def step (m : Metered W H) (event : SenderEvent W) : Option (Metered W H) := do
  let s := m.sender
  let sender ← s.step event
  match event with
  | .received i now =>
      let (loop, packet) ← s.handed[i]?
      if now < loop.nextSendTime then some { m with sender, op := loop }
      else some (m.handOver sender (loop.resync now) packet)
  | .waited i =>
      let (loop, packet) ← s.expired[i]?
      some (m.handOver sender loop packet)
  | .datagramSent i ok =>
      let (loop, frameCount) ← s.sending[i]?
      let failures := if ok then 0 else loop.consecutiveFailures + 1
      some {
        sender
        op := { loop with consecutiveFailures := failures }.maintainSync frameCount
        flying := none
        sent := m.sent ++ m.flying.toList }
  | _ => some { m with sender }

/-- The machine of a sender from the state in which its loop starts. -/
def machine (sender : SenderState W H) (op : SenderLoop) :
    Machine (Metered W H) (SenderEvent W) where
  start := { sender, op }
  step := step

variable {m m' : Metered W H} {e : SenderEvent W}

omit [HashRatchet H] in
theorem sender_handOver (m : Metered W H) (sender : SenderState W H) (op : SenderLoop)
    (packet : AudioPacket) : (m.handOver sender op packet).sender = sender := by
  unfold handOver
  dsimp only
  split
  · rfl
  · split <;> rfl

/-- A metered step is a step of the sender. -/
theorem step_sender (hstep : m.step e = some m') : m.sender.step e = some m'.sender := by
  obtain ⟨sender, hsender, hrest⟩ := Option.bind_eq_some_iff.mp hstep
  rw [hsender, Option.some_inj]
  cases e with
  | received i now =>
      obtain ⟨⟨loop, packet⟩, -, hrest⟩ := Option.bind_eq_some_iff.mp hrest
      dsimp only at hrest
      split at hrest
      · obtain rfl := Option.some.inj hrest
        rfl
      · obtain rfl := Option.some.inj hrest
        exact (sender_handOver m sender _ packet).symm
  | waited i =>
      obtain ⟨⟨loop, packet⟩, -, hrest⟩ := Option.bind_eq_some_iff.mp hrest
      obtain rfl := Option.some.inj hrest
      exact (sender_handOver m sender loop packet).symm
  | datagramSent i ok =>
      obtain ⟨⟨loop, frameCount⟩, -, hrest⟩ := Option.bind_eq_some_iff.mp hrest
      obtain rfl := Option.some.inj hrest
      rfl
  | connection event now | sendOpus data samples | sendCancelled | loopStarted i
  | timerExpired | waitAborted i | flush | flushCheck =>
      obtain rfl := Option.some.inj hrest
      rfl

/-! ## One step -/

/-- The packet holds what libopus says, and has samples. -/
def Measured (opus : Bytes → Int) (packet : AudioPacket) : Prop :=
  packet.frameCount = (opus packet.encoded).toNat ∧ (packetSamples packet.encoded).isSome = true

omit [HashRatchet H] in
instance (opus : Bytes → Int) (packet : AudioPacket) : Decidable (Measured opus packet) :=
  inferInstanceAs (Decidable (_ ∧ _))

/-- What holds between the steps. -/
structure Tracks (opus : Bytes → Int) (m : Metered W H) : Prop where
  sole : m.sender.Sole m.op
  flying : m.sender.sending.map Prod.snd = m.flying.toList.map AudioPacket.frameCount
  inFlight : m.sender.InFlight
  packets : ∀ packet ∈ m.sender.packets, Measured opus packet
  packet : ∀ packet ∈ m.flying, Measured opus packet

/-- The clocks stand, or go on by one packet. -/
structure Moves (opus : Bytes → Int) (m m' : Metered W H) : Prop where
  tracks : m'.Tracks opus
  clocks :
    (m'.sent = m.sent ∧
      m'.sender.connection.rtpTimestamp = m.sender.connection.rtpTimestamp ∧
      m'.op.nextSendTime = m.op.nextSendTime) ∨
    ∃ packet, Measured opus packet ∧ m'.sent = m.sent ++ [packet] ∧
      m'.sender.connection.rtpTimestamp =
        m.sender.connection.rtpTimestamp + UInt32.ofNat packet.frameCount ∧
      m'.op.nextSendTime =
        m.op.nextSendTime + milliseconds (packet.frameCount * 1000 / sampleRate : Nat)

/-- What the result assumes of a step: no other loop starts, the packets have samples and
are measured by libopus, and the loop does not reset its drift. -/
def Steady (opus : Bytes → Int) (m : Metered W H) : SenderEvent W → Prop
  | .connection event _ =>
      ∀ c ∈ m.sender.connection.step event, c.receivers ≤ m.sender.connection.receivers
  | .sendOpus data samples => samples = opus data ∧ (packetSamples data).isSome = true
  | .received i now =>
      ∀ entry ∈ m.sender.handed[i]?, (now - entry.1.nextSendTime) / milliseconds 1 ≤ 100
  | _ => True

instance (opus : Bytes → Int) (m : Metered W H) : ∀ e, Decidable (m.Steady opus e)
  | .connection event _ =>
      inferInstanceAs (Decidable (∀ c ∈ m.sender.connection.step event,
        c.receivers ≤ m.sender.connection.receivers))
  | .sendOpus data samples =>
      inferInstanceAs (Decidable (samples = opus data ∧ (packetSamples data).isSome = true))
  | .received i now =>
      inferInstanceAs (Decidable (∀ entry ∈ m.sender.handed[i]?,
        (now - entry.1.nextSendTime) / milliseconds 1 ≤ 100))
  | .sendCancelled | .loopStarted _ | .timerExpired | .waited _ | .waitAborted _
  | .datagramSent _ _ | .flush | .flushCheck => inferInstanceAs (Decidable True)

variable {opus : Bytes → Int}

omit [HashRatchet H] in
/-- A step that moves loops and packets about, and no clock. -/
theorem Tracks.rearranged (h : m.Tracks opus) {sender : SenderState W H}
    (hinFlight : sender.InFlight)
    (hsole : sender.Sole m.op) (hsending : sender.sending = m.sender.sending)
    (htimestamp : sender.connection.rtpTimestamp = m.sender.connection.rtpTimestamp)
    (hpackets : ∀ packet ∈ sender.packets, Measured opus packet) :
    m.Moves opus { m with sender } := by
  constructor
  · exact ⟨hsole, (congrArg _ hsending).trans h.flying, hinFlight, hpackets, h.packet⟩
  · exact .inl ⟨rfl, htimestamp, rfl⟩

/-- A packet that the only loop sends. -/
theorem moves_handOver (h : m.Tracks opus) {s s' : SenderState W H} {packet : AudioPacket}
    (halone : s.loops = []) (hconnection : s.connection = m.sender.connection)
    (hsending : s.sending = m.sender.sending)
    (hpackets : ∀ packet ∈ s.packets, Measured opus packet) (hpacket : Measured opus packet)
    (hinFlight : s'.InFlight) (hsend : s.send m.op packet = some s') :
    m.Moves opus (m.handOver s' m.op packet) := by
  have hnone : s.sending = [] := by
    simp only [SenderState.loops, List.append_eq_nil_iff, List.map_eq_nil_iff] at halone
    exact halone.2
  have hflying : m.flying = none := by
    have hmap := h.flying
    rw [← hsending, hnone] at hmap
    cases hheld : m.flying with
    | none => rfl
    | some packet => simp [hheld] at hmap
  obtain ⟨connection, -, hcases⟩ := SenderState.send_cases hsend
  rw [hconnection] at hcases
  rcases hcases with ⟨hudp, hdatagrams, htimestamp, rfl⟩ | ⟨hudp, hdatagrams, htimestamp, rfl⟩ |
    ⟨hudp, hdatagrams, htimestamp, rfl⟩
  · rw [handOver, if_pos hudp]
    exact h.rearranged hinFlight (.inl halone) hsending htimestamp hpackets
  · obtain ⟨hkept, -, hsame, -⟩ := SenderState.stepLoop_spec { s with connection }
      (m.op.maintainSync packet.frameCount)
    rw [handOver, if_neg hudp, if_pos (by rw [hkept, hdatagrams])]
    constructor
    · refine ⟨SenderState.sole_stepLoop (s := { s with connection }) halone _, ?_, hinFlight, ?_,
        h.packet⟩
      · show List.map _ (SenderState.stepLoop _ _).sending = _
        rw [hsame, hnone, hflying]
        rfl
      · intro other hother
        exact hpackets other (SenderState.packets_stepLoop { s with connection } _ other hother)
    · refine .inr ⟨packet, hpacket, rfl, ?_, rfl⟩
      show (SenderState.stepLoop _ _).connection.rtpTimestamp = _
      rw [hkept, htimestamp]
  · rw [handOver, if_neg hudp, if_neg (by simp [hdatagrams])]
    constructor
    · refine ⟨.inr ?_, ?_, hinFlight, hpackets, ?_⟩
      · simp only [SenderState.loops, List.append_eq_nil_iff] at halone ⊢
        obtain ⟨⟨⟨⟨⟨hposted, hreceiving⟩, hhanded⟩, hwaits⟩, hexpired⟩, -⟩ := halone
        simp [hposted, hreceiving, hhanded, hwaits, hexpired, hnone]
      · simp [hnone]
      · intro other hother
        obtain rfl := Option.some.inj hother
        exact hpacket
    · exact .inl ⟨rfl, htimestamp, rfl⟩

/-- A loop that takes its first step. -/
theorem moves_loopStarted (h : m.Tracks opus) {i : Nat}
    (hinFlight : m'.sender.InFlight) (hstep : m.step (.loopStarted i) = some m') :
    m.Moves opus m' := by
  obtain ⟨sender, htaken, hrest⟩ := Option.bind_eq_some_iff.mp hstep
  obtain rfl := Option.some.inj hrest
  obtain ⟨loop, hfound, hnext⟩ := Option.bind_eq_some_iff.mp htaken
  obtain rfl := Option.some.inj hnext
  obtain ⟨rfl, halone⟩ := h.sole.posted hfound
  obtain ⟨hconnection, -, hsending, -⟩ :=
    SenderState.stepLoop_spec { m.sender with posted := m.sender.posted.eraseIdx i } m.op
  refine h.rearranged hinFlight (SenderState.sole_stepLoop halone _) hsending ?_ ?_
  · rw [hconnection]
  · intro packet hpacket
    exact h.packets packet (SenderState.packets_stepLoop
      { m.sender with posted := m.sender.posted.eraseIdx i } _ packet hpacket)

omit [HashRatchet H] in
/-- Without a reset the loop stays as it is. -/
theorem resync_eq {loop : SenderLoop} {now : Int}
    (hsteady : (now - loop.nextSendTime) / milliseconds 1 ≤ 100) : loop.resync now = loop :=
  if_neg (Int.not_lt.mpr hsteady)

/-- A loop that gets a packet waits with it or sends it. -/
theorem moves_received (h : m.Tracks opus) {i : Nat} {now : Int}
    (hsteady : m.Steady opus (.received i now)) (hinFlight : m'.sender.InFlight)
    (hstep : m.step (.received i now) = some m') : m.Moves opus m' := by
  obtain ⟨sender, htaken, hrest⟩ := Option.bind_eq_some_iff.mp hstep
  obtain ⟨⟨loop, packet⟩, hfound, hrest⟩ := Option.bind_eq_some_iff.mp hrest
  obtain ⟨⟨loop', packet'⟩, hfound', htaken⟩ := Option.bind_eq_some_iff.mp htaken
  obtain ⟨rfl, rfl⟩ := Prod.mk.inj (Option.some.inj (hfound.symm.trans hfound'))
  have hresync := resync_eq (hsteady _ hfound)
  obtain ⟨rfl, halone⟩ := h.sole.handed hfound
  obtain ⟨hpacket, hpackets⟩ := SenderState.packets_handed hfound
  dsimp only [SenderState.process] at htaken hrest
  split at hrest
  · next hearly =>
      obtain rfl := Option.some.inj hrest
      rw [if_pos hearly] at htaken
      split at htaken
      · cases htaken
      · obtain rfl := Option.some.inj htaken
        refine h.rearranged hinFlight (.inr ?_) rfl rfl ?_
        · simp only [SenderState.loops, List.append_eq_nil_iff] at halone ⊢
          obtain ⟨⟨⟨⟨⟨hposted, hreceiving⟩, hhanded⟩, -⟩, hexpired⟩, hsending⟩ := halone
          simp [hposted, hreceiving, hhanded, hexpired, hsending]
        · intro other hother
          simp only [SenderState.packets, List.map_cons, List.map_nil, List.mem_append,
            List.mem_singleton] at hother
          rcases hother with (hbefore | rfl) | hexpired
          · apply h.packets other (hpackets other _)
            simp only [SenderState.packets, List.mem_append]
            exact .inl (.inl hbefore)
          · exact h.packets other hpacket
          · apply h.packets other (hpackets other _)
            simp only [SenderState.packets, List.mem_append]
            exact .inr hexpired
  · next hdue =>
      obtain rfl := Option.some.inj hrest
      rw [if_neg hdue, hresync] at htaken
      rw [hresync] at hinFlight ⊢
      rw [sender_handOver] at hinFlight
      exact moves_handOver h halone rfl rfl
        (fun other hother => h.packets other (hpackets other hother))
        (h.packets packet hpacket) hinFlight htaken

/-- A loop that has waited sends its packet. -/
theorem moves_waited (h : m.Tracks opus) {i : Nat} (hinFlight : m'.sender.InFlight)
    (hstep : m.step (.waited i) = some m') : m.Moves opus m' := by
  obtain ⟨sender, htaken, hrest⟩ := Option.bind_eq_some_iff.mp hstep
  obtain ⟨⟨loop, packet⟩, hfound, hrest⟩ := Option.bind_eq_some_iff.mp hrest
  obtain ⟨⟨loop', packet'⟩, hfound', htaken⟩ := Option.bind_eq_some_iff.mp htaken
  obtain ⟨rfl, rfl⟩ := Prod.mk.inj (Option.some.inj (hfound.symm.trans hfound'))
  obtain ⟨rfl, halone⟩ := h.sole.expired hfound
  obtain ⟨hpacket, hpackets⟩ := SenderState.packets_expired hfound
  obtain rfl := Option.some.inj hrest
  rw [sender_handOver] at hinFlight
  exact moves_handOver h halone rfl rfl
    (fun other hother => h.packets other (hpackets other hother))
    (h.packets packet hpacket) hinFlight htaken

/-- A loop whose datagram was sent is done with its packet. -/
theorem moves_datagramSent (h : m.Tracks opus) {i : Nat} {ok : Bool}
    (hinFlight : m'.sender.InFlight) (hstep : m.step (.datagramSent i ok) = some m') :
    m.Moves opus m' := by
  obtain ⟨sender, htaken, hrest⟩ := Option.bind_eq_some_iff.mp hstep
  obtain ⟨⟨loop, frameCount⟩, hfound, hrest⟩ := Option.bind_eq_some_iff.mp hrest
  obtain ⟨⟨loop', frameCount'⟩, hfound', htaken⟩ := Option.bind_eq_some_iff.mp htaken
  obtain ⟨rfl, rfl⟩ := Prod.mk.inj (Option.some.inj (hfound.symm.trans hfound'))
  obtain ⟨rfl, halone⟩ := h.sole.sending hfound
  -- the packet in flight is the one of the loop
  have hframes : (m.flying.toList.map AudioPacket.frameCount)[i]? = some frameCount := by
    rw [← h.flying, List.getElem?_map, hfound]
    rfl
  obtain ⟨packet, hflying, hcount⟩ :
      ∃ packet, m.flying = some packet ∧ packet.frameCount = frameCount := by
    cases hheld : m.flying with
    | none => simp [hheld] at hframes
    | some packet =>
        rw [hheld] at hframes
        cases i with
        | zero => exact ⟨packet, rfl, Option.some.inj hframes⟩
        | succ i => simp at hframes
  obtain ⟨connection, hconnection, hnext⟩ := Option.bind_eq_some_iff.mp htaken
  obtain rfl := Option.some.inj hnext
  obtain rfl := Option.some.inj hrest
  obtain ⟨-, hlink⟩ := Connection.step_link hconnection
  have hsame : m.sender.connection.datagrams.getD i 0 = frameCount := by
    rw [h.inFlight, List.getD_eq_getElem?_getD, List.getElem?_map, hfound]
    rfl
  have htimestamp : connection.rtpTimestamp =
      m.sender.connection.rtpTimestamp + UInt32.ofNat frameCount := by
    rw [← hsame]
    exact congrArg Link.rtpTimestamp hlink
  obtain ⟨hkept, -, hsending, -⟩ := SenderState.datagramSent_spec
    { m.sender with connection, sending := m.sender.sending.eraseIdx i } m.op frameCount ok
  constructor
  · refine ⟨SenderState.sole_datagramSent
      (s := { m.sender with connection, sending := m.sender.sending.eraseIdx i }) halone _ _ _,
      ?_, hinFlight, ?_, ?_⟩
    · show (SenderState.datagramSent _ _ _ _).sending.map Prod.snd = []
      simp only [SenderState.loops, List.append_eq_nil_iff, List.map_eq_nil_iff] at halone
      rw [hsending, List.map_eq_nil_iff]
      exact halone.2
    · intro other hother
      exact h.packets other (SenderState.packets_datagramSent
        { m.sender with connection, sending := m.sender.sending.eraseIdx i } m.op frameCount ok
        other hother)
    · intro other hother
      cases hother
  · refine .inr ⟨packet, h.packet packet hflying, ?_, ?_, ?_⟩
    · show m.sent ++ m.flying.toList = _
      rw [hflying]
      rfl
    · show (SenderState.datagramSent _ _ _ _).connection.rtpTimestamp = _
      rw [hkept, htimestamp, hcount]
    · rw [hcount]
      rfl

/-- **The step lemma.** -/
theorem moves_step (h : m.Tracks opus) (hsteady : m.Steady opus e) (hstep : m.step e = some m') :
    m.Moves opus m' := by
  have hinFlight := SenderState.inFlight_step h.inFlight (step_sender hstep)
  obtain ⟨sender, htaken, hrest⟩ := Option.bind_eq_some_iff.mp hstep
  cases e with
  | connection event now =>
      obtain rfl := Option.some.inj hrest
      obtain ⟨haudio, hsent, connection, hconnection, hnext⟩ := SenderState.step_event htaken
      obtain ⟨-, -, htimestamp⟩ := SenderState.packets_step hconnection haudio hsent
      split at hnext
      · obtain rfl := Option.some.inj hnext
        refine h.rearranged hinFlight (h.sole.of_sublist ?_) rfl htimestamp ?_
        · exact SenderState.loops_stopSender _
        · intro packet hpacket
          exact h.packets packet (SenderState.packets_stopSender _ packet hpacket)
      · rw [if_neg (Nat.not_lt.mpr (hsteady connection hconnection))] at hnext
        obtain rfl := Option.some.inj hnext
        exact h.rearranged hinFlight h.sole rfl htimestamp h.packets
  | sendOpus data samples =>
      obtain rfl := Option.some.inj hrest
      simp only [SenderState.step, SenderState.sendOpus] at htaken
      split at htaken
      · obtain rfl := Option.some.inj htaken
        exact h.rearranged h.inFlight h.sole rfl rfl h.packets
      · split at htaken
        · simp at htaken
        · obtain rfl := Option.some.inj htaken
          obtain ⟨hconnection, -, hsending, -⟩ := SenderState.enqueue_spec
            { m.sender with connection :=
              { m.sender.connection with
                pendingFrames := m.sender.connection.pendingFrames + 1 } }
            ⟨data, samples.toNat⟩
          refine h.rearranged hinFlight (h.sole.of_perm ?_) hsending ?_ ?_
          · exact SenderState.loops_enqueue _ _
          · rw [hconnection]
          · intro packet hpacket
            rcases SenderState.packets_enqueue _ _ packet hpacket with rfl | hbefore
            · obtain ⟨rfl, hsome⟩ := hsteady
              exact ⟨rfl, hsome⟩
            · exact h.packets packet hbefore
  | sendCancelled =>
      obtain rfl := Option.some.inj hrest
      simp only [SenderState.step] at htaken
      split at htaken
      · simp at htaken
      · obtain rfl := Option.some.inj htaken
        exact h.rearranged hinFlight h.sole rfl rfl h.packets
  | loopStarted i => exact moves_loopStarted h hinFlight hstep
  | received i now => exact moves_received h hsteady hinFlight hstep
  | timerExpired =>
      obtain rfl := Option.some.inj hrest
      simp only [SenderState.step] at htaken
      split at htaken
      · simp at htaken
      · obtain rfl := Option.some.inj htaken
        refine h.rearranged hinFlight (h.sole.of_perm ?_) rfl rfl ?_
        · rw [List.perm_iff_count]
          intro loop
          simp only [SenderState.loops, List.map_append, List.count_append, List.map_nil,
            List.count_nil]
          omega
        · intro packet hpacket
          apply h.packets
          simp only [SenderState.packets, List.map_append, List.mem_append, List.map_nil,
            List.not_mem_nil] at hpacket ⊢
          tauto
  | waited i => exact moves_waited h hinFlight hstep
  | waitAborted i =>
      obtain rfl := Option.some.inj hrest
      obtain ⟨entry, -, hnext⟩ := Option.bind_eq_some_iff.mp htaken
      obtain rfl := Option.some.inj hnext
      exact h.rearranged hinFlight h.sole rfl rfl h.packets
  | datagramSent i ok => exact moves_datagramSent h hinFlight hstep
  | flush =>
      obtain rfl := Option.some.inj hrest
      obtain rfl := Option.some.inj htaken
      exact h.rearranged hinFlight h.sole rfl rfl h.packets
  | flushCheck =>
      obtain rfl := Option.some.inj hrest
      simp only [SenderState.step] at htaken
      split at htaken
      · simp at htaken
      · obtain rfl := Option.some.inj htaken
        split
        · exact h.rearranged h.inFlight h.sole rfl rfl h.packets
        · exact h.rearranged h.inFlight h.sole rfl rfl h.packets

/-! ## Runs -/

/-- The clocks have followed the samples that were sent. -/
def Accurate (sender : SenderState W H) (op : SenderLoop) (m : Metered W H) : Prop :=
  m.sender.connection.rtpTimestamp = sender.connection.rtpTimestamp + UInt32.ofNat m.samples ∧
    (m.op.nextSendTime - op.nextSendTime) * sampleRate = m.samples * 1000000000

omit [HashRatchet H] in
instance (sender : SenderState W H) (op : SenderLoop) (m : Metered W H) :
    Decidable (m.Accurate sender op) :=
  inferInstanceAs (Decidable (_ ∧ _))

variable {sender : SenderState W H} {op : SenderLoop}

omit [HashRatchet H] in
/-- Clocks that are accurate stay so, where they go on by one packet, exactly when it
holds one frame of whole milliseconds. -/
theorem accurate_next (hopus : ∀ data, data ≠ [] → opus data = samplesPerFrame (toc data))
    {packet : AudioPacket} (hpacket : Measured opus packet) (h : m.Accurate sender op)
    (hsent : m'.sent = m.sent ++ [packet])
    (htimestamp : m'.sender.connection.rtpTimestamp =
      m.sender.connection.rtpTimestamp + UInt32.ofNat packet.frameCount)
    (htime : m'.op.nextSendTime =
      m.op.nextSendTime + milliseconds (packet.frameCount * 1000 / sampleRate : Nat)) :
    m'.Accurate sender op ↔ OneWholeFrame packet.encoded := by
  obtain ⟨hcount, hsome⟩ := hpacket
  obtain ⟨n, hn⟩ := Option.isSome_iff_exists.mp hsome
  have hdata : packet.encoded ≠ [] := by
    intro hempty
    rw [hempty] at hn
    cases hn
  rw [hopus _ hdata, Int.toNat_natCast] at hcount
  have hsamples : m'.samples = m.samples + n := by
    simp [samples, hsent, hn]
  rw [← advance_iff hn, Accurate, htimestamp, htime, hsamples, hcount, h.1, UInt32.ofNat_add,
    UInt32.add_assoc, UInt32.add_right_inj, UInt32.add_right_inj]
  have hbefore := h.2
  unfold sampleRate at hbefore ⊢
  refine and_congr_right fun _ => ?_
  push_cast at hbefore ⊢
  constructor
  · intro hafter
    linarith
  · intro hafter
    linarith

/-- **The clocks follow the samples** of the packets in every run without a drift reset
exactly when every packet that was sent holds one frame, and not one of 2.5 ms. -/
theorem accurate_iff (hopus : ∀ data, data ≠ [] → opus data = samplesPerFrame (toc data))
    (hreachable : (SenderState.machine W H).Reachable sender) (hloop : sender.loops = [op])
    (hidle : sender.sending = []) (hpackets : ∀ packet ∈ sender.packets, Measured opus packet)
    {trace : List (Taken (Metered W H) (SenderEvent W))} (hrun : (machine sender op).Run trace m) :
    (∀ t ∈ trace, t.pre.Steady opus t.event) →
      ((∀ t ∈ trace, t.post.Accurate sender op) ↔
        ∀ packet ∈ m.sent, OneWholeFrame packet.encoded) := by
  intro hsteady
  have hstart : Accurate sender op { sender, op } := by
    simp [Accurate, samples]
  suffices hall : m.Tracks opus ∧
      ((∀ t ∈ trace, t.post.Accurate sender op) → m.Accurate sender op) ∧
      ((∀ t ∈ trace, t.post.Accurate sender op) ↔
        ∀ packet ∈ m.sent, OneWholeFrame packet.encoded) from hall.2.2
  induction hrun with
  | start =>
      refine ⟨⟨.inr hloop, ?_, SenderState.inFlight_of_reachable hreachable, hpackets, ?_⟩, ?_, ?_⟩
      · show sender.sending.map Prod.snd = []
        rw [hidle]
        rfl
      · intro packet hpacket
        cases hpacket
      · exact fun _ => hstart
      · constructor
        · intro _ packet hpacket
          cases hpacket
        · intro _ t ht
          cases ht
  | @step trace m m' e hrun hstep ih =>
      obtain ⟨htracks, hlast, hiff⟩ := ih fun t ht => hsteady t (List.mem_cons_of_mem _ ht)
      obtain ⟨htracks', hclocks⟩ := moves_step htracks (hsteady _ List.mem_cons_self) hstep
      rw [List.forall_mem_cons]
      refine ⟨htracks', And.left, ?_⟩
      rcases hclocks with ⟨hsent, htimestamp, htime⟩ | ⟨packet, hpacket, hsent, htimestamp, htime⟩
      · have hsame : m.Accurate sender op → m'.Accurate sender op := by
          unfold Accurate samples
          rw [hsent, htimestamp, htime]
          exact id
        rw [hsent, ← hiff]
        exact ⟨And.right, fun hbefore => ⟨hsame (hlast hbefore), hbefore⟩⟩
      · rw [hsent, List.forall_mem_append, ← hiff, List.forall_mem_singleton]
        constructor
        · rintro ⟨hafter, hbefore⟩
          exact ⟨hbefore,
            (accurate_next hopus hpacket (hlast hbefore) hsent htimestamp htime).mp hafter⟩
        · rintro ⟨hbefore, hwhole⟩
          exact ⟨(accurate_next hopus hpacket (hlast hbefore) hsent htimestamp htime).mpr hwhole,
            hbefore⟩

end Metered

/-! ## A frame and two -/

/-- The client has connected, and its loop has not taken a step. -/
def clockStart : SenderState (referenceSetting referenceUser) Chain :=
  (senderMachine.recorded (atStart (connectEvents referenceUser))).2

/-- Its machine. -/
abbrev clockMachine :
    Machine (Metered (referenceSetting referenceUser) Chain)
      (SenderEvent (referenceSetting referenceUser)) :=
  Metered.machine clockStart { nextSendTime := 0 }

/-- The loop sends a packet. -/
def clockEvents (data : Bytes) : List (SenderEvent (referenceSetting referenceUser)) :=
  [.loopStarted 0, .sendOpus data 960, .received 0 0, .datagramSent 0 true]

/-- 20 ms of CELT. -/
def oneFrame : Bytes := [0xf8, 1, 2, 3]

/-- Twice 20 ms of CELT. -/
def twoFrames : Bytes := [0xf9, 1, 2, 3, 4]

/-- What libopus says of a packet. -/
def referenceOpus (data : Bytes) : Int := samplesPerFrame (toc data)

/-- One frame: the clocks are at 960 samples and at 20 ms. -/
theorem accurate_oneFrame :
    (clockMachine.recorded (clockEvents oneFrame)).2.samples = 960 ∧
      ∀ t ∈ (clockMachine.recorded (clockEvents oneFrame)).1,
        t.post.Accurate clockStart { nextSendTime := 0 } := by
  have hrun := Machine.run_recorded clockMachine (clockEvents oneFrame) (by decide +kernel)
  have hstart : senderMachine.Reachable clockStart :=
    ⟨_, Machine.run_recorded senderMachine (atStart (connectEvents referenceUser))
      (by decide +kernel)⟩
  have hopus : ∀ data, data ≠ [] → referenceOpus data = samplesPerFrame (toc data) :=
    fun _ _ => rfl
  constructor
  · decide +kernel
  · refine (Metered.accurate_iff hopus hstart (by decide +kernel) (by decide +kernel)
      (by decide +kernel) hrun (by decide +kernel)).mpr ?_
    decide +kernel

/-- Two frames: the RTP timestamp is at 960 samples, and 1920 were sent. -/
theorem accurate_twoFrames : ∃ trace m, clockMachine.Run trace m ∧
    senderMachine.Reachable clockStart ∧ clockStart.loops = [{ nextSendTime := 0 }] ∧
      clockStart.sending = [] ∧ clockStart.packets = [] ∧
      (∀ t ∈ trace, t.pre.Steady referenceOpus t.event) ∧ packetSamples twoFrames = some 1920 ∧
      m.samples = 1920 ∧ m.sender.connection.rtpTimestamp = 960 ∧
      ¬ m.Accurate clockStart { nextSendTime := 0 } := by
  have hrun := Machine.run_recorded clockMachine (clockEvents twoFrames) (by decide +kernel)
  have hstart : senderMachine.Reachable clockStart :=
    ⟨_, Machine.run_recorded senderMachine (atStart (connectEvents referenceUser))
      (by decide +kernel)⟩
  exact ⟨_, _, hrun, hstart, by decide +kernel, by decide +kernel, by decide +kernel,
    by decide +kernel, by decide +kernel, by decide +kernel, by decide +kernel,
    by decide +kernel⟩

end Ekizu.Voice
