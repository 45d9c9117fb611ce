import Llarp.Foundation.Run
import Llarp.Iwp.Receiver

/-!
# Fragmentation and reassembly

Sender and receiver cut a message at the same places. `Genuine` describes the
packets that can be sent for a message, and `Holds` a partial copy of it: wherever
a fragment bit is set, the bytes below it are the sender's. Every genuine packet
extends a partial copy, so a complete one is the message.
-/

namespace Llarp.Iwp

open Foundation InboundMessage Option

/-- The packets that carry the message `msg` under the id `id`. The digest is open:
it is computed after the message was accepted. -/
inductive Genuine (id : UInt64) (msg : Message) : Plaintext → Prop
  | xmit (digest : ShortHash) :
      Genuine id msg (.xmit (UInt16.ofNat msg.size) id digest (msg.bytes.take 1024))
  | data (k : ℕ) (inside : k * 1024 < msg.size) :
      Genuine id msg (.data (UInt16.ofNat (k * 1024)) id ((msg.bytes.drop (k * 1024)).take 1024))

namespace OutboundMessage

variable {H : Type} {m : OutboundMessage H} {p : Plaintext}

theorem genuine_xmit (m : OutboundMessage H) : Genuine m.msgID m.data m.xmit := .xmit m.digest

theorem genuine_of_mem_unAcked (h : p ∈ m.unAcked) : Genuine m.msgID m.data p := by
  obtain ⟨k, inside, -, rfl⟩ := mem_unAcked h
  exact .data k inside

/-- What happens to a message between its acceptance and its end. -/
inductive Op where
  | hashed (digest : ShortHash)
  | xmit
  | ack (bitmask : UInt8)
  | flushUnAcked (now : ℕ)
  deriving DecidableEq, Repr

/-- The packets that a sequence of operations sends. -/
def emitted (m : OutboundMessage H) : List Op → List Plaintext
  | [] => []
  | .hashed digest :: ops => emitted { m with digest := digest } ops
  | .xmit :: ops => m.xmit :: emitted m ops
  | .ack bitmask :: ops => emitted (m.ack bitmask) ops
  | .flushUnAcked now :: ops => m.unAcked ++ emitted (m.flushed now) ops

/-- Whatever is acknowledged in between, only genuine packets are sent. -/
theorem genuine_of_mem_emitted {ops : List Op} (h : p ∈ m.emitted ops) :
    Genuine m.msgID m.data p := by
  induction ops generalizing m with
  | nil => simp [emitted] at h
  | cons op ops ih =>
    cases op with
    | hashed digest => exact ih (m := { m with digest := digest }) h
    | ack bitmask => exact ih (m := m.ack bitmask) h
    | xmit =>
      rcases List.mem_cons.mp h with rfl | later
      · exact m.genuine_xmit
      · exact ih later
    | flushUnAcked now =>
      rcases List.mem_append.mp h with here | later
      · exact genuine_of_mem_unAcked here
      · exact ih (m := m.flushed now) later

end OutboundMessage

/-! ### Partial copies -/

namespace InboundMessage

variable {id : UInt64} {msg : Message} {e m : InboundMessage} {now k : ℕ}

/-- The entry is a partial copy of the message. -/
structure Holds (e : InboundMessage) (msg : Message) : Prop where
  length_eq : e.data.length = msg.size
  agrees : ∀ i, e.acks.getLsbD (i / 1024) = true → e.data[i]? = msg.bytes[i]?

/-- A complete copy is the message. -/
theorem Holds.eq_of_isCompleted (holds : e.Holds msg) (complete : e.isCompleted = some true) :
    e.data = msg.bytes := by
  apply List.ext_getElem?
  intro i
  by_cases inside : i < e.data.length
  · exact holds.agrees i (isCompleted_eq_some_true.mp complete i inside)
  · have same : e.data.length = msg.bytes.length := holds.length_eq
    rw [List.getElem?_eq_none (by omega), List.getElem?_eq_none (by omega)]

theorem length_fragment (msg : Message) (k : ℕ) (inside : k * 1024 ≤ msg.size) :
    k * 1024 + ((msg.bytes.drop (k * 1024)).take 1024).length ≤ msg.size := by
  rw [List.length_take, List.length_drop]
  calc
    _ ≤ k * 1024 + (msg.size - k * 1024) := Nat.add_le_add_left (Nat.min_le_right ..) _
    _ = msg.size := Nat.add_sub_cancel' inside

theorem toNat_offset (low : k < 8) : (UInt16.ofNat (k * 1024)).toNat = k * 1024 := by
  rw [UInt16.toNat_ofNat', Nat.mod_eq_of_lt (by omega)]

theorem toNat_size (msg : Message) : (UInt16.ofNat msg.size).toNat = msg.size := by
  have bound : msg.size ≤ 8192 := msg.size_le
  exact UInt16.toNat_ofNat_of_lt' (lt_of_le_of_lt bound (by decide))

/-- Copying a genuine fragment extends a partial copy by its bit. -/
theorem Holds.handleData (holds : e.Holds msg) (low : k < 8) (inside : k * 1024 ≤ msg.size)
    (now : ℕ) :
    ∃ m, e.handleData (UInt16.ofNat (k * 1024)) ((msg.bytes.drop (k * 1024)).take 1024) now =
        some m ∧ m.Holds msg ∧ m.msgID = e.msgID ∧
        ∀ j, m.acks.getLsbD j = (e.acks.getLsbD j || decide (k = j)) := by
  have offset := toNat_offset low
  have start : k * 1024 < maxLinkMsgSize := by
    simp only [maxLinkMsgSize]
    omega
  have fits := length_fragment msg k inside
  obtain ⟨m, hm⟩ := isSome_iff_exists.mp
    (handleData_isSome.mpr fun _ => by rw [offset]; exact start :
      (e.handleData (UInt16.ofNat (k * 1024)) ((msg.bytes.drop (k * 1024)).take 1024) now).isSome)
  rcases handleData_cases hm with ⟨outside, -⟩ | ⟨-, -, hdata, -, sameId, -, -, bits⟩
  · rw [offset, holds.length_eq] at outside
    omega
  rw [offset, Nat.mul_div_cancel k (by decide)] at bits
  rw [offset] at hdata
  refine ⟨m, hm, ⟨by rw [length_handleData hm, holds.length_eq], ?_⟩, sameId, bits⟩
  intro i hbit
  rw [hdata, getElem?_splice (by rw [holds.length_eq]; exact fits)]
  split_ifs with here
  · -- inside the fragment: the sender's bytes were copied
    rw [List.length_take] at here
    rw [List.getElem?_take_of_lt (by omega), List.getElem?_drop]
    congr 1
    omega
  · -- outside of it the bit was set before
    by_cases hit : k = i / 1024
    · have beyond : msg.size ≤ i := by
        have hsize : msg.size = msg.bytes.length := rfl
        rw [List.length_take, List.length_drop] at here
        omega
      rw [List.getElem?_eq_none (by rw [holds.length_eq]; exact beyond),
        List.getElem?_eq_none beyond]
    · rw [bits, decide_eq_false hit, Bool.or_false] at hbit
      exact holds.agrees i hbit

theorem holds_new (id : UInt64) (msg : Message) (digest : ShortHash) (now : ℕ) :
    (new id (UInt16.ofNat msg.size) digest now).Holds msg where
  length_eq := by rw [new, List.length_replicate, toNat_size]
  agrees i hbit := by simp [new] at hbit

end InboundMessage

/-! ### Receiving genuine packets -/

namespace Receiver

variable {r r' : Receiver} {id : UInt64} {msg : Message} {now : ℕ} {e : InboundMessage}
  {p : Plaintext}

/-- The receiver has not seen the message, or has a partial copy of it that
includes the first fragment. -/
def Copying (r : Receiver) (id : UInt64) (msg : Message) : Prop :=
  id ∉ r.replayFilter ∧
    ∀ e, r.rxMsgs[id]? = some e → e.Holds msg ∧ e.acks.getLsbD 0 = true

/-- Fragment `k` of a message has arrived. -/
def Marked (r : Receiver) (id : UInt64) (k : ℕ) : Prop :=
  ∃ e, r.rxMsgs[id]? = some e ∧ e.acks.getLsbD k = true

theorem Accepted.copying (accepted : Accepted r id e r') (new : id ∉ r.replayFilter)
    (holds : e.Holds msg) (first : e.acks.getLsbD 0 = true) : r'.Copying id msg := by
  refine ⟨by rw [accepted.replayFilter_eq]; exact new, ?_⟩
  intro e' found
  rw [accepted.rxMsgs_eq, getElem?_insert, if_pos rfl] at found
  cases found
  exact ⟨holds, first⟩

theorem Accepted.marked_iff (accepted : Accepted r id e r') (k : ℕ) :
    r'.Marked id k ↔ e.acks.getLsbD k = true := by
  rw [Marked, accepted.rxMsgs_eq, getElem?_insert, if_pos rfl]
  simp

theorem handleXMIT_whole (msg : Message) (id : UInt64) (digest : ShortHash) (now : ℕ) :
    ∃ m, (new id (UInt16.ofNat msg.size) digest now).handleData 0
        (msg.bytes.take 1024) now = some m ∧ m.Holds msg ∧ m.acks.getLsbD 0 = true := by
  obtain ⟨m, hm, holds, -, bits⟩ :=
    (holds_new id msg digest now).handleData (k := 0) (by decide) (by simp) now
  exact ⟨m, by simpa using hm, holds, by rw [bits]; simp⟩

/-- A genuine announcement brings the first fragment, and what has arrived stays. -/
theorem Copying.handleXMIT (copying : r.Copying id msg) (digest : ShortHash) (now : ℕ) :
    ∃ r', r.handleXMIT now (UInt16.ofNat msg.size) id digest (msg.bytes.take 1024) = some r' ∧
      r'.Copying id msg ∧ (∀ k, r.Marked id k → r'.Marked id k) ∧ r'.Marked id 0 := by
  obtain ⟨new, copies⟩ := copying
  unfold Receiver.handleXMIT
  rw [if_neg new]
  cases found : r.rxMsgs[id]? with
  | some e =>
    -- a duplicate: the entry was created by an earlier announcement
    exact ⟨r, rfl, ⟨new, copies⟩, fun _ hk => hk, e, found, (copies e found).2⟩
  | none =>
    obtain ⟨m, hm, holds, first⟩ := handleXMIT_whole msg id digest now
    have whole : (msg.bytes.take 1024).length = min (UInt16.ofNat msg.size).toNat fragmentSize := by
      rw [List.length_take, toNat_size, Nat.min_comm]
      rfl
    have testable : m.isCompleted.isSome :=
      isCompleted_isSome.mpr (Or.inl (holds.length_eq ▸ msg.size_le))
    obtain ⟨r', hr⟩ := isSome_iff_exists.mp
      (show ((r.store id m).maybeQueueVerify id m).isSome by
        rw [maybeQueueVerify, isSome_map]; exact testable)
    have accepted := accepted_of_maybeQueueVerify hr
    rw [if_pos whole, hm]
    refine ⟨r', hr, accepted.copying new holds first, ?_, (accepted.marked_iff 0).mpr first⟩
    rintro k ⟨e, stored, -⟩
    rw [found] at stored
    cases stored

/-- A genuine fragment is kept if the message was announced before, and what has
arrived stays. -/
theorem Copying.handleDATA (copying : r.Copying id msg) {k : ℕ} (inside : k * 1024 < msg.size)
    (now : ℕ) :
    ∃ r', r.handleDATA now (UInt16.ofNat (k * 1024)) id
          ((msg.bytes.drop (k * 1024)).take 1024) = some r' ∧
      r'.Copying id msg ∧ (∀ j, r.Marked id j → r'.Marked id j) ∧
      (r.Marked id 0 → r'.Marked id k) := by
  obtain ⟨new, copies⟩ := copying
  unfold Receiver.handleDATA
  cases found : r.rxMsgs[id]? with
  | none =>
    refine ⟨r.send (.nack id), by simp [new], ⟨new, copies⟩, fun _ hj => hj, ?_⟩
    rintro ⟨e, stored, -⟩
    rw [found] at stored
    cases stored
  | some e =>
    obtain ⟨holds, first⟩ := copies e found
    have bound : msg.size ≤ 8192 := msg.size_le
    obtain ⟨m, hm, holds', -, bits⟩ := holds.handleData (by omega) inside.le now
    have testable : m.isCompleted.isSome :=
      isCompleted_isSome.mpr (Or.inl (holds'.length_eq ▸ msg.size_le))
    obtain ⟨r', hr⟩ := isSome_iff_exists.mp
      (show ((r.store id m).maybeQueueVerify id m).isSome by
        rw [maybeQueueVerify, isSome_map]; exact testable)
    have accepted := accepted_of_maybeQueueVerify hr
    dsimp only
    rw [hm]
    refine ⟨r', hr, accepted.copying new holds' (by rw [bits, first]; rfl), ?_, ?_⟩
    · rintro j ⟨e', stored, hbit⟩
      cases found.symm.trans stored
      rw [accepted.marked_iff, bits, hbit]
      rfl
    · intro _
      rw [accepted.marked_iff, bits]
      simp

/-! ### Any order, duplication and loss -/

/-- The packet announces a message. -/
def IsXMIT (data : Packet) : Prop := ∃ sz id h fragment, parse data = some (.xmit sz id h fragment)

/-- The packet carries fragment `k` of a message. -/
def IsDATA (k : ℕ) (data : Packet) : Prop :=
  ∃ idx id fragment, parse data = some (.data idx id fragment) ∧ idx.toNat = k * 1024

/-- Handle packets one after the other, each at its time. -/
def receiveAll (r : Receiver) (packets : List (ℕ × Packet)) : Option Receiver :=
  run (fun r (packet : ℕ × Packet) => r.receive packet.1 packet.2) r packets

theorem parse_genuine (genuine : Genuine id msg p) : parse (createPacket p []) = some p := by
  cases genuine with
  | xmit digest => exact parse_createPacket _ [] trivial rfl
  | data k inside => exact parse_createPacket _ [] trivial rfl

/-- One genuine packet. -/
theorem Copying.receive (copying : r.Copying id msg) (genuine : Genuine id msg p) (now : ℕ) :
    ∃ r', r.receive now (createPacket p []) = some r' ∧ r'.Copying id msg ∧
      (∀ k, r.Marked id k → r'.Marked id k) ∧
      (IsXMIT (createPacket p []) → r'.Marked id 0) ∧
      ∀ k, IsDATA k (createPacket p []) → r.Marked id 0 → r'.Marked id k := by
  have parsed := parse_genuine genuine
  unfold Receiver.receive IsXMIT IsDATA
  rw [parsed]
  cases genuine with
  | xmit digest =>
    obtain ⟨r', handled, copying', kept, first⟩ := copying.handleXMIT digest now
    refine ⟨r', handled, copying', kept, fun _ => first, ?_⟩
    rintro k ⟨idx, i, fragment, other, -⟩
    cases other
  | data k inside =>
    obtain ⟨r', handled, copying', kept, arrived⟩ := copying.handleDATA inside now
    refine ⟨r', handled, copying', kept, ?_, ?_⟩
    · rintro ⟨sz, i, h, fragment, other⟩
      cases other
    · rintro j ⟨idx, i, fragment, same, offset⟩
      have bound : msg.size ≤ 8192 := msg.size_le
      cases same
      rw [toNat_offset (by omega)] at offset
      obtain rfl : k = j := by omega
      exact arrived

/-- Any number of genuine packets in any order. -/
theorem Copying.receiveAll (copying : r.Copying id msg) (packets : List (ℕ × Packet))
    (genuine : ∀ packet ∈ packets, ∃ p, Genuine id msg p ∧ packet.2 = createPacket p []) :
    ∃ r', r.receiveAll packets = some r' ∧ r'.Copying id msg ∧
      (∀ k, r.Marked id k → r'.Marked id k) ∧
      ∀ k, (∃ packet ∈ packets, IsDATA k packet.2) → r.Marked id 0 → r'.Marked id k := by
  induction packets generalizing r with
  | nil =>
    refine ⟨r, rfl, copying, fun _ hk => hk, ?_⟩
    rintro k ⟨packet, isNone, -⟩
    cases isNone
  | cons packet packets ih =>
    obtain ⟨p, hp, bytes⟩ := genuine packet List.mem_cons_self
    obtain ⟨m, handled, copyingM, keptM, -, arrivedM⟩ := copying.receive hp packet.1
    obtain ⟨r', rest, copying', kept, arrived⟩ :=
      ih copyingM fun later hlater => genuine later (List.mem_cons_of_mem _ hlater)
    refine ⟨r', ?_, copying', fun k hk => kept k (keptM k hk), ?_⟩
    · rw [Receiver.receiveAll, run_cons, bytes, handled]
      exact rest
    · rintro k ⟨found, hfound, carries⟩ announced
      rcases List.mem_cons.mp hfound with rfl | later
      · exact kept k (arrivedM k (bytes ▸ carries) announced)
      · exact arrived k ⟨found, later, carries⟩ (keptM 0 announced)

/-- A partial copy with all its fragments is complete. -/
theorem Copying.complete (copying : r.Copying id msg) (first : r.Marked id 0)
    (others : ∀ k ≥ 1, k * 1024 < msg.size → r.Marked id k) :
    ∃ e, r.rxMsgs[id]? = some e ∧ e.isCompleted = some true := by
  obtain ⟨e, found, hbit⟩ := first
  refine ⟨e, found, isCompleted_eq_some_true.mpr ?_⟩
  intro i inside
  by_cases zero : i / 1024 = 0
  · rw [zero]
    exact hbit
  · rw [(copying.2 e found).1.length_eq] at inside
    obtain ⟨e', found', hbit'⟩ := others (i / 1024) (by omega) (by omega)
    cases found.symm.trans found'
    exact hbit'

/-- The packets that are sent for a message, received in any order, with any loss and
duplication: a completed entry has the bytes of the message, and the entry is
completed once the announcement was followed by every further fragment. -/
theorem receiveAll_reassembles {H : Type} (id : UInt64) (msg : Message) (acceptedAt : ℕ)
    (handler : Option H) (priority : UInt16) (ops : List OutboundMessage.Op) (r : Receiver)
    (absent : r.rxMsgs[id]? = none) (new : id ∉ r.replayFilter) (packets : List (ℕ × Packet))
    (origin : ∀ packet ∈ packets,
      ∃ p ∈ (OutboundMessage.new id msg acceptedAt handler priority).emitted ops,
        packet.2 = createPacket p []) :
    ∃ r', r.receiveAll packets = some r' ∧
      (∀ e, r'.rxMsgs[id]? = some e → e.isCompleted = some true → e.data = msg.bytes) ∧
      ∀ before xmit after, packets = before ++ xmit :: after → IsXMIT xmit.2 →
        (∀ k ≥ 1, k * 1024 < msg.size → ∃ packet ∈ after, IsDATA k packet.2) →
        ∃ e, r'.rxMsgs[id]? = some e ∧ e.isCompleted = some true := by
  have genuine : ∀ packet ∈ packets, ∃ p, Genuine id msg p ∧ packet.2 = createPacket p [] := by
    intro packet hpacket
    obtain ⟨p, hp, bytes⟩ := origin packet hpacket
    exact ⟨p, OutboundMessage.genuine_of_mem_emitted hp, bytes⟩
  have fresh : r.Copying id msg := by
    refine ⟨new, fun e found => ?_⟩
    rw [absent] at found
    cases found
  obtain ⟨r', handled, copying, -, -⟩ := fresh.receiveAll packets genuine
  refine ⟨r', handled, fun e found => (copying.2 e found).1.eq_of_isCompleted, ?_⟩
  rintro before xmit after rfl announces fragments
  -- run up to the announcement, then through it, then the rest
  obtain ⟨r₁, first, copying₁, -, -⟩ := fresh.receiveAll before fun packet hpacket =>
    genuine packet (List.mem_append_left _ hpacket)
  obtain ⟨p, hp, bytes⟩ := genuine xmit (by simp)
  obtain ⟨r₂, second, copying₂, -, announced, -⟩ := copying₁.receive hp xmit.1
  have firstFragment : r₂.Marked id 0 := announced (bytes ▸ announces)
  obtain ⟨r₃, third, -, kept, arrived⟩ := copying₂.receiveAll after fun packet hpacket =>
    genuine packet (by simp [hpacket])
  have same : r₃ = r' := by
    rw [receiveAll, run_append, show run _ r before = some r₁ from first, bind_some,
      run_cons, bytes, second] at handled
    exact some.inj (third.symm.trans handled)
  subst same
  refine copying.complete (kept 0 firstFragment) fun k hk inside => ?_
  exact arrived k (fragments k hk inside) firstFragment

/-- A message of two fragments, the second of one byte. -/
def twoFragments : Message := ⟨List.replicate 1025 1, by rw [List.length_replicate]; decide⟩

/-- The packets of a message of two fragments, in the order in which they are sent. -/
def twoFragmentPackets : List Packet :=
  ((OutboundMessage.new 7 twoFragments 0 (none : Option Unit) 0).emitted
    [.hashed (.zero 32), .xmit, .flushUnAcked 0]).map (createPacket · [])

theorem receiveAll_reassembles_twoFragments :
    ∃ r', empty.receiveAll (twoFragmentPackets.map (0, ·)) = some r' ∧
      (∀ e, r'.rxMsgs[(7 : UInt64)]? = some e → e.isCompleted = some true →
        e.data = twoFragments.bytes) ∧
      ∀ before xmit after, twoFragmentPackets.map (0, ·) = before ++ xmit :: after → IsXMIT xmit.2 →
        (∀ k ≥ 1, k * 1024 < twoFragments.size → ∃ packet ∈ after, IsDATA k packet.2) →
        ∃ e, r'.rxMsgs[(7 : UInt64)]? = some e ∧ e.isCompleted = some true := by
  refine receiveAll_reassembles 7 twoFragments 0 (none : Option Unit) 0
    [.hashed (.zero 32), .xmit, .flushUnAcked 0] empty (by simp [empty]) (by simp [empty]) _ ?_
  intro packet hpacket
  obtain ⟨data, hdata, rfl⟩ := List.mem_map.mp hpacket
  obtain ⟨p, hp, rfl⟩ := List.mem_map.mp hdata
  exact ⟨p, hp, rfl⟩

/-- A fragment that overtakes its announcement is answered with a NACK and lost: both
packets of the message were handled, and the entry is not complete. -/
theorem overtaking_fragment_lost :
    twoFragmentPackets.map (fun data => (parse data).map Plaintext.command) =
      [some .xmit, some .data] ∧
    ((empty.receiveAll (twoFragmentPackets.reverse.map (0, ·))).map fun r =>
      (r.rxMsgs[(7 : UInt64)]?.map InboundMessage.isCompleted, r.sent)) =
        some (some (some false), [.nack 7]) := by
  decide +kernel

end Receiver

end Llarp.Iwp
