import Llarp.Iwp.Reception

/-!
# Fragment bits out of range

An announced size is any 16-bit number, but an entry has bits for eight fragments
only. The bit set throws when a fragment starts behind them, and so does the
completion test when it runs past a full set. A run is free of exceptions exactly
when all its DATA packets keep inside the bits of the entries they hit, and a peer
can leave the bits with two packets.
-/

namespace Llarp.Iwp

open Foundation InboundMessage Receiver Option

/-- A DATA packet keeps inside the bits of the entry it hits. A fragment that fits
into the announced size must start below `maxLinkMsgSize`, and it must not set the
last missing bit of an oversized entry, because the completion test then runs on. -/
def InboundMessage.KeepsInside (e : InboundMessage) (idx : UInt16) (fragment : List UInt8) : Prop :=
  idx.toNat + fragment.length ≤ e.data.length →
    idx.toNat < maxLinkMsgSize ∧
      (e.data.length ≤ maxLinkMsgSize ∨ ∃ k < 8, k ≠ idx.toNat / 1024 ∧ e.acks.getLsbD k = false)

/-- The completion test of the entry does not throw. -/
def InboundMessage.Testable (e : InboundMessage) : Prop :=
  e.data.length ≤ maxLinkMsgSize ∨ ∃ k < 8, e.acks.getLsbD k = false

namespace InboundMessage

variable {e m : InboundMessage} {idx : UInt16} {fragment : List UInt8} {now : ℕ}

theorem testable_of_acks_eq (testable : e.Testable) (sameLength : m.data.length = e.data.length)
    (sameAcks : m.acks = e.acks) : m.Testable := by
  rw [Testable, sameLength, sameAcks]
  exact testable

/-- An accepted fragment keeps inside the bits exactly when neither the bit set
nor the completion test throws. -/
theorem keepsInside_iff (now : ℕ) (testable : e.Testable) :
    e.KeepsInside idx fragment ↔
      ∃ m, e.handleData idx fragment now = some m ∧ m.Testable := by
  by_cases fits : idx.toNat + fragment.length ≤ e.data.length
  · constructor
    · intro inside
      obtain ⟨low, room⟩ := inside fits
      obtain ⟨m, hm⟩ := isSome_iff_exists.mp
        (handleData_isSome.mpr fun _ => low : (e.handleData idx fragment now).isSome)
      refine ⟨m, hm, ?_⟩
      rcases handleData_cases hm with ⟨outside, -⟩ | ⟨-, -, -, -, -, -, -, bits⟩
      · omega
      · rw [Testable, length_handleData hm]
        refine room.imp id ?_
        rintro ⟨k, hk, other, clear⟩
        exact ⟨k, hk, by simp [bits, clear, Ne.symm other]⟩
    · rintro ⟨m, hm, room⟩ _
      rcases handleData_cases hm with ⟨outside, -⟩ | ⟨-, low, -, -, -, -, -, bits⟩
      · omega
      · refine ⟨low, ?_⟩
        rw [Testable, length_handleData hm] at room
        refine room.imp id ?_
        rintro ⟨k, hk, clear⟩
        rw [bits] at clear
        simp only [Bool.or_eq_false_iff, decide_eq_false_iff_not] at clear
        exact ⟨k, hk, Ne.symm clear.2, clear.1⟩
  · constructor
    · intro _
      exact ⟨e, by rw [handleData, if_pos (by omega)], testable⟩
    · intro _ fits'
      exact absurd fits' fits

/-- An announcement never leaves the bits, whatever its size: only bit 0 can be set. -/
theorem announced_testable {sz : UInt16} {rxid : UInt64} {h : ShortHash}
    (hm : (new rxid sz h now).handleData 0 fragment now = some m) : m.Testable := by
  refine Or.inr ⟨1, by decide, ?_⟩
  rcases handleData_cases hm with ⟨-, rfl⟩ | ⟨-, -, -, -, -, -, -, bits⟩
  · simp [new]
  · rw [bits]
    simp [new]

end InboundMessage

namespace Receiver

variable {r r' : Receiver} {now : ℕ} {rxid : UInt64} {m : InboundMessage}
  {sz idx : UInt16} {h : ShortHash} {fragment : List UInt8}

/-- Every entry passes the completion test without an exception. -/
def Testable (r : Receiver) : Prop := ∀ (k : UInt64) e, r.rxMsgs[k]? = some e → e.Testable

theorem maybeQueueVerify_isSome : (r.maybeQueueVerify rxid m).isSome ↔ m.Testable := by
  rw [maybeQueueVerify, isSome_map, isCompleted_isSome,
    InboundMessage.Testable]

theorem handleXMIT_isSome : (r.handleXMIT now sz rxid h fragment).isSome := by
  unfold handleXMIT
  by_cases replay : rxid ∈ r.replayFilter
  · rw [if_pos replay]
    rfl
  · rw [if_neg replay]
    cases r.rxMsgs[rxid]? with
    | some e => rfl
    | none =>
      dsimp only
      split_ifs with whole
      · obtain ⟨m, hm⟩ := isSome_iff_exists.mp
          (handleData_isSome.mpr fun _ => by decide :
            ((new rxid sz h now).handleData 0 fragment now).isSome)
        rw [hm, bind_some, maybeQueueVerify_isSome]
        exact announced_testable hm
      · rfl

section

variable (testable : r.Testable)

include testable

theorem handleDATA_isSome :
    (r.handleDATA now idx rxid fragment).isSome ↔
      ∀ e, r.rxMsgs[rxid]? = some e → e.KeepsInside idx fragment := by
  unfold handleDATA
  cases found : r.rxMsgs[rxid]? with
  | none =>
    dsimp only
    split_ifs
    · simp
    · simp
  | some e =>
    have exact_here : e.KeepsInside idx fragment ↔ _ :=
      keepsInside_iff now (testable rxid e found)
    simp only [some.injEq, forall_eq', exact_here]
    constructor
    · intro defined
      obtain ⟨r', hr⟩ := isSome_iff_exists.mp defined
      obtain ⟨m, hm, queued⟩ := bind_eq_some_iff.mp hr
      exact ⟨m, hm, maybeQueueVerify_isSome.mp (isSome_of_eq_some queued)⟩
    · rintro ⟨m, hm, room⟩
      rw [hm, bind_some, maybeQueueVerify_isSome]
      exact room

theorem Testable.insert (room : m.Testable)
    (hr : r'.rxMsgs = r.rxMsgs.insert rxid m) : r'.Testable := by
  intro k e found
  rw [hr] at found
  rcases getElem?_insert_eq_some.mp found with ⟨-, rfl⟩ | ⟨-, old⟩
  · exact room
  · exact testable k e old

theorem Testable.of_subset
    (sub : ∀ (k : UInt64) e, r'.rxMsgs[k]? = some e → r.rxMsgs[k]? = some e) : r'.Testable :=
  fun k e found => testable k e (sub k e found)

theorem Testable.handleXMIT (hr : r.handleXMIT now sz rxid h fragment = some r') : r'.Testable := by
  rcases handleXMIT_cases hr with ⟨-, rfl⟩ | ⟨-, -, rfl⟩ | ⟨-, -, m, accepted, origin⟩
  · exact testable
  · exact testable
  · refine testable.insert ?_ accepted.rxMsgs_eq
    rcases origin with ⟨rfl, -⟩ | ⟨-, hm⟩
    · exact Or.inr ⟨1, by decide, by simp [new]⟩
    · exact announced_testable hm

/-- A DATA packet that was handled without an exception left a testable entry. -/
theorem Testable.handleDATA (hr : r.handleDATA now idx rxid fragment = some r') : r'.Testable := by
  have inside := (handleDATA_isSome testable).mp (isSome_of_eq_some hr)
  rcases handleDATA_cases hr with ⟨-, -, rfl⟩ | ⟨-, -, rfl⟩ | ⟨e, m, found, hm, accepted⟩
  · exact testable
  · exact testable
  · refine testable.insert ?_ accepted.rxMsgs_eq
    obtain ⟨m', hm', room⟩ :=
      (keepsInside_iff now (testable rxid e found)).mp (inside e found)
    cases hm.symm.trans hm'
    exact room

end

end Receiver

namespace Reception

variable {shorthash : List UInt8 → ShortHash} {s t : Reception} {event : Event}

/-- The condition on one step: a DATA packet keeps inside the bits of its entry. -/
def InsideBits (s : Reception) : Event → Prop
  | .packet data =>
    match parse data with
    | some (.data idx rxid fragment) =>
      ∀ e, s.rx.rxMsgs[rxid]? = some e → e.KeepsInside idx fragment
    | _ => True
  | _ => True

theorem testable_of_transition (testable : s.rx.Testable) (h : Transition shorthash s event t) :
    t.rx.Testable := by
  cases h with
  | wait | ignored | noRequest | sendMACK => exact testable
  | xmit data parsed handled => exact testable.handleXMIT handled
  | data data parsed handled => exact testable.handleDATA handled
  | verified request asked good =>
    exact testable.of_subset fun _ _ => getElem?_of_verifiedMessage
  | dropped request m => exact testable.of_subset fun _ _ => getElem?_of_dropMessage
  | tick => exact testable.of_subset fun _ _ => getElem?_of_tick
  | pump =>
    intro k e found
    rw [withRx_rx, getElem?_pump_rxMsgs] at found
    obtain ⟨m, hm, rfl⟩ := map_eq_some_iff.mp found
    have room := testable k m hm
    split_ifs
    · exact testable_of_acks_eq room rfl rfl
    · exact room

theorem step_isSome_iff_insideBits (testable : s.rx.Testable) :
    (step shorthash s event).isSome ↔ InsideBits s event := by
  cases event with
  | packet data =>
    rw [step, InsideBits, isSome_map, receive]
    cases parse data with
    | none => simp
    | some plain =>
      cases plain with
      | xmit sz rxid h fragment => simpa [handle] using handleXMIT_isSome
      | data idx rxid fragment => exact handleDATA_isSome testable
      | _ => simp [handle]
  | _ => simp [step, InsideBits]

/-- The receiving half of a session runs without an exception exactly when every
DATA packet keeps inside the fragment bits of the entry it hits. -/
theorem run_isSome_iff_insideBits (shorthash : List UInt8 → ShortHash) (now : ℕ)
    (events : List Event) :
    (run (step shorthash) (start now) events).isSome ↔
      Along (step shorthash) InsideBits (start now) events := by
  refine run_isSome_iff_along (fun s => s.rx.Testable) ?_ ?_ ?_
  · intro s event t testable hstep
    exact testable_of_transition testable (transition_of_step hstep)
  · intro s event testable
    exact step_isSome_iff_insideBits testable
  · intro k e found
    simp [start, empty] at found

/-- Two packets: a message of 9000 bytes is announced, then a fragment at offset 8192. -/
def oversizedRun : List Event :=
  [.packet (createPacket (.xmit 9000 7 (.zero 32) []) []),
    .packet (createPacket (.data 8192 7 [1]) [])]

theorem oversizedRun_throws : run (step prefixHash) (start 0) oversizedRun = none := by
  decide +kernel

end Reception

end Llarp.Iwp
