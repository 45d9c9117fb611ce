import Llarp.Iwp.Reception

/-!
# Integrity of delivered messages

The hasher checks a copy of an entry, taken when the entry became complete. When
its verdict arrives, the session delivers the bytes of the entry itself. Between
the two the entry goes on accepting fragments, and after a timeout another
message can take its place under the same id; `pendingHash` is kept but never
consulted. Delivered bytes match the announced digest in every run in which no
packet touches an entry while a good verdict for its id is on the way.
-/

namespace Llarp.Iwp

open Foundation

namespace Receiver

variable {r r' : Receiver} {now : ℕ} {rxid : UInt64} {e m q : InboundMessage}
  {sz idx : UInt16} {h : ShortHash} {fragment : List UInt8}

section

variable (shorthash : List UInt8 → ShortHash)

/-- A verdict that is on the way for this id will be good. -/
def AwaitsVerified (r : Receiver) (rxid : UInt64) : Prop :=
  ∃ q ∈ r.verifying, q.msgID = rxid ∧ q.verify shorthash = true

/-- Every copy that the hasher will find good agrees with the entry of its id. -/
def CopiesCurrent (r : Receiver) : Prop :=
  ∀ q ∈ r.verifying, q.verify shorthash = true →
    ∀ e, r.rxMsgs[q.msgID]? = some e → e.data = q.data ∧ e.digset = q.digset

/-- The invariant behind the integrity of deliveries. -/
structure Intact (r : Receiver) : Prop where
  keyed : r.KeyedById
  current : r.CopiesCurrent shorthash
  delivered : ∀ d ∈ r.delivered, shorthash d.message.data = d.message.digset

end

variable {shorthash : List UInt8 → ShortHash}

theorem CopiesCurrent.of_subset (current : r.CopiesCurrent shorthash)
    (requests : ∀ q ∈ r'.verifying, q ∈ r.verifying)
    (entries : ∀ (k : UInt64) e, r'.rxMsgs[k]? = some e → r.rxMsgs[k]? = some e) :
    r'.CopiesCurrent shorthash :=
  fun q hq good e found => current q (requests q hq) good e (entries q.msgID e found)

/-- Replacing the entry of an id for which no good verdict is on the way. -/
theorem CopiesCurrent.accepted_new (current : r.CopiesCurrent shorthash) (same : m.msgID = rxid)
    (quiet : ¬ r.AwaitsVerified shorthash rxid) (accepted : Accepted r rxid m r') :
    r'.CopiesCurrent shorthash := by
  intro q hq good e found
  rw [accepted.rxMsgs_eq] at found
  rcases accepted.mem_verifying hq with old | ⟨rfl, -⟩
  · rcases getElem?_insert_eq_some.mp found with ⟨hit, -⟩ | ⟨-, kept⟩
    · exact absurd ⟨q, old, hit, good⟩ quiet
    · exact current q old good e kept
  · rcases getElem?_insert_eq_some.mp found with ⟨-, rfl⟩ | ⟨other, -⟩
    · exact ⟨rfl, rfl⟩
    · exact absurd same other

/-- Replacing an entry by one with the same bytes and digest. -/
theorem CopiesCurrent.accepted_same (current : r.CopiesCurrent shorthash) (same : m.msgID = rxid)
    (found : r.rxMsgs[rxid]? = some e) (sameData : m.data = e.data)
    (sameDigset : m.digset = e.digset) (accepted : Accepted r rxid m r') :
    r'.CopiesCurrent shorthash := by
  intro q hq good e' found'
  rw [accepted.rxMsgs_eq] at found'
  rcases accepted.mem_verifying hq with old | ⟨rfl, -⟩
  · rcases getElem?_insert_eq_some.mp found' with ⟨hit, rfl⟩ | ⟨-, kept⟩
    · rw [sameData, sameDigset]
      exact current q old good e (hit ▸ found)
    · exact current q old good e' kept
  · rcases getElem?_insert_eq_some.mp found' with ⟨-, rfl⟩ | ⟨other, -⟩
    · exact ⟨rfl, rfl⟩
    · exact absurd same other

/-- A verdict that the entry deserves delivers good bytes. -/
theorem Intact.verifiedMessage (intact : r.Intact shorthash)
    (deserved : ∀ e, r.rxMsgs[rxid]? = some e → shorthash e.data = e.digset) :
    (r.verifiedMessage now rxid).Intact shorthash := by
  have keyed : (r.verifiedMessage now rxid).KeyedById :=
    intact.keyed.of_subset fun _ _ => getElem?_of_verifiedMessage
  cases found : r.rxMsgs[rxid]? with
  | none =>
    rw [verifiedMessage_of_none found] at keyed ⊢
    exact ⟨keyed, intact.current, intact.delivered⟩
  | some m =>
    have same := intact.keyed rxid m found
    have fewer : ∀ (k : UInt64) e, (r.dropMessage rxid).rxMsgs[k]? = some e →
        r.rxMsgs[k]? = some e := fun _ _ => getElem?_of_dropMessage
    by_cases replay : rxid ∈ r.replayFilter
    · rw [verifiedMessage_of_mem found same replay] at keyed ⊢
      exact ⟨keyed, intact.current.of_subset (fun _ => id) fewer, intact.delivered⟩
    · rw [verifiedMessage_of_not_mem found same replay] at keyed ⊢
      refine ⟨keyed, intact.current.of_subset (fun _ => id) fewer, ?_⟩
      intro d hd
      rcases List.mem_append.mp hd with old | latest
      · exact intact.delivered d old
      · obtain rfl := List.mem_singleton.mp latest
        exact deserved m found

end Receiver

namespace Reception

open Receiver

section

variable (shorthash : List UInt8 → ShortHash)

/-- The condition on one step. While a good verdict for an id is on the way, no XMIT
packet creates an entry for it, and a DATA packet that is not ignored carries the
bytes that are already there. -/
def Undisturbed (s : Reception) : Event → Prop
  | .packet data =>
    match parse data with
    | some (.xmit _ rxid _ _) =>
      s.rx.AwaitsVerified shorthash rxid → rxid ∈ s.rx.replayFilter ∨ rxid ∈ s.rx.rxMsgs
    | some (.data idx rxid fragment) =>
      s.rx.AwaitsVerified shorthash rxid → ∀ e, s.rx.rxMsgs[rxid]? = some e →
        e.data.length < idx.toNat + fragment.length ∨
          (e.data.drop idx.toNat).take fragment.length = fragment
    | _ => True
  | _ => True

instance (rx : Receiver) (rxid : UInt64) : Decidable (rx.AwaitsVerified shorthash rxid) :=
  inferInstanceAs (Decidable (∃ q ∈ rx.verifying, q.msgID = rxid ∧ q.verify shorthash = true))

instance (s : Reception) (event : Event) : Decidable (Undisturbed shorthash s event) := by
  unfold Undisturbed
  split
  · split <;> infer_instance
  · infer_instance

end

variable {shorthash : List UInt8 → ShortHash} {s t : Reception} {event : Event}

theorem intact_xmit {data : Packet} {sz : UInt16} {rxid : UInt64} {h : ShortHash}
    {fragment : List UInt8} {rx : Receiver} (intact : s.rx.Intact shorthash)
    (undisturbed : Undisturbed shorthash s (.packet data))
    (parsed : parse data = some (.xmit sz rxid h fragment))
    (handled : s.rx.handleXMIT s.now sz rxid h fragment = some rx) : rx.Intact shorthash := by
  have keyed := intact.keyed.handleXMIT handled
  rw [Undisturbed, parsed] at undisturbed
  rcases handleXMIT_cases handled with ⟨-, rfl⟩ | ⟨-, -, rfl⟩ | ⟨new, absent, m, accepted, origin⟩
  · exact ⟨keyed, intact.current, intact.delivered⟩
  · exact intact
  · have quiet : ¬ s.rx.AwaitsVerified shorthash rxid := by
      intro awaits
      rcases undisturbed awaits with replay | known
      · exact new replay
      · exact not_mem_iff_getElem?.mpr absent known
    have same : m.msgID = rxid := by
      rcases origin with ⟨rfl, -⟩ | ⟨-, hm⟩
      · rfl
      · exact InboundMessage.msgID_handleData hm
    refine ⟨keyed, intact.current.accepted_new same quiet accepted, ?_⟩
    rw [accepted.delivered_eq]
    exact intact.delivered

theorem intact_data {data : Packet} {idx : UInt16} {rxid : UInt64} {fragment : List UInt8}
    {rx : Receiver} (intact : s.rx.Intact shorthash)
    (undisturbed : Undisturbed shorthash s (.packet data))
    (parsed : parse data = some (.data idx rxid fragment))
    (handled : s.rx.handleDATA s.now idx rxid fragment = some rx) : rx.Intact shorthash := by
  have keyed := intact.keyed.handleDATA handled
  rw [Undisturbed, parsed] at undisturbed
  rcases handleDATA_cases handled with ⟨-, -, rfl⟩ | ⟨-, -, rfl⟩ | ⟨e, m, found, hm, accepted⟩
  · exact ⟨keyed, intact.current, intact.delivered⟩
  · exact ⟨keyed, intact.current, intact.delivered⟩
  · have same : m.msgID = rxid :=
      (InboundMessage.msgID_handleData hm).trans (intact.keyed rxid e found)
    refine ⟨keyed, ?_, by rw [accepted.delivered_eq]; exact intact.delivered⟩
    by_cases awaits : s.rx.AwaitsVerified shorthash rxid
    · refine intact.current.accepted_same same found ?_ (InboundMessage.digset_handleData hm) accepted
      rcases InboundMessage.handleData_cases hm with ⟨-, rfl⟩ | ⟨fits, -, hdata, -⟩
      · rfl
      · rcases undisturbed awaits e found with outside | sameBytes
        · omega
        · rw [hdata, splice_eq_self fits sameBytes]
    · exact intact.current.accepted_new same awaits accepted

theorem intact_of_transition (intact : s.rx.Intact shorthash)
    (undisturbed : Undisturbed shorthash s event) (h : Transition shorthash s event t) :
    t.rx.Intact shorthash := by
  have keyed := keyedById_of_transition intact.keyed h
  cases h with
  | wait | ignored | noRequest => exact intact
  | sendMACK => exact ⟨keyed, intact.current, intact.delivered⟩
  | xmit data parsed handled => exact intact_xmit intact undisturbed parsed handled
  | data data parsed handled => exact intact_data intact undisturbed parsed handled
  | dropped request m =>
    refine ⟨keyed, intact.current.of_subset ?_ ?_, intact.delivered⟩
    · exact fun q => List.mem_of_mem_eraseIdx
    · exact fun _ _ => getElem?_of_dropMessage
  | verified request asked good =>
    rename_i m
    -- the answered copy agrees with the entry, so the entry deserves the verdict
    refine Intact.verifiedMessage ⟨intact.keyed, ?_, intact.delivered⟩ ?_
    · exact intact.current.of_subset (fun q => List.mem_of_mem_eraseIdx) fun _ _ => id
    · intro e found
      obtain ⟨sameData, sameDigset⟩ := intact.current m asked good e found
      rw [sameData, sameDigset]
      exact of_decide_eq_true good
  | tick =>
    exact ⟨keyed, intact.current.of_subset (fun _ => id) fun _ _ => getElem?_of_tick,
      intact.delivered⟩
  | pump =>
    refine ⟨keyed, ?_, intact.delivered⟩
    intro q hq good e found
    rw [withRx_rx, getElem?_pump_rxMsgs] at found
    obtain ⟨m, hm, rfl⟩ := Option.map_eq_some_iff.mp found
    have agrees := intact.current q hq good m hm
    split_ifs
    · exact agrees
    · exact agrees

theorem intact_start (now : ℕ) : (start now).rx.Intact shorthash where
  keyed := keyedById_empty
  current q hq := by simp [start, Receiver.empty] at hq
  delivered d hd := by simp [start, Receiver.empty] at hd

/-- In every undisturbed run the bytes that are delivered hash to the digest that
their XMIT packet announced. -/
theorem delivered_matches_digest (shorthash : List UInt8 → ShortHash) (now : ℕ)
    (events : List Event) (s : Reception)
    (undisturbed : Along (step shorthash) (Undisturbed shorthash) (start now) events)
    (hrun : run (step shorthash) (start now) events = some s) :
    ∀ d ∈ s.rx.delivered, shorthash d.message.data = d.message.digset := by
  have intact : s.rx.Intact shorthash :=
    run_invariant (fun s => s.rx.Intact shorthash)
      (fun _ _ _ intact quiet hstep =>
        intact_of_transition intact quiet (transition_of_step hstep))
      (intact_start now) undisturbed hrun
  exact intact.delivered

/-- The peer sends its only fragment twice before the verdict arrives. -/
def repeatedFragmentRun : List Event :=
  [.packet (xmitOf 7 1), .packet (createPacket (.data 0 7 [1]) []), .verdict 0]

theorem delivered_matches_digest_repeatedFragment :
    ∃ s, run (step prefixHash) (start 0) repeatedFragmentRun = some s ∧
      s.rx.delivered.map (fun d => d.message.data) = [[1]] ∧
      ∀ d ∈ s.rx.delivered, prefixHash d.message.data = d.message.digset := by
  obtain ⟨s, hrun⟩ := Option.isSome_iff_exists.mp
    (show (run (step prefixHash) (start 0) repeatedFragmentRun).isSome by decide +kernel)
  have log : (run (step prefixHash) (start 0) repeatedFragmentRun).map
      (fun s => s.rx.delivered.map fun d => d.message.data) = some [[1]] := by
    decide +kernel
  rw [hrun] at log
  exact ⟨s, hrun, Option.some.inj log,
    delivered_matches_digest prefixHash 0 _ s (by decide +kernel) hrun⟩

/-- The peer replaces its only fragment before the verdict on the first one arrives. -/
def replacedFragmentRun : List Event :=
  [.packet (xmitOf 7 1), .packet (createPacket (.data 0 7 [2]) []), .verdict 0]

/-- Bytes are delivered that nobody hashed: the announced digest is that of `[1]`. -/
theorem replacedFragment_delivered :
    ((run (step prefixHash) (start 0) replacedFragmentRun).map fun s =>
      s.rx.delivered.map fun d => (d.message.data, d.message.digset)) =
        some [([2], prefixHash [1])] ∧
    prefixHash [2] ≠ prefixHash [1] := by
  decide +kernel

end Reception

end Llarp.Iwp
