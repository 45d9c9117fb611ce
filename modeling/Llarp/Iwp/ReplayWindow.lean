import Llarp.Iwp.Reception

/-!
# The replay window

A message id is delivered again only after the replay window. The filter is filled
by deliveries and by receptions that timed out, and it decays on its own schedule;
what ties it to the deliveries is that an id stays in the filter until the window
since its delivery has passed.
-/

namespace Llarp.Iwp

open Foundation

/-- The delivery lies in the past by at least the window, or its id is in the
filter with a time that is not before the delivery. -/
def Receiver.Remembers (r : Receiver) (now : ℕ) (d : Delivery) : Prop :=
  d.time + replayWindow ≤ now ∨
    ∃ time, r.replayFilter[d.message.msgID]? = some time ∧ d.time ≤ time

/-- Deliveries of one id, in the order in which they happened, are a window apart. -/
def Receiver.Spaced (r : Receiver) : Prop :=
  r.delivered.Pairwise fun d e =>
    d.message.msgID = e.message.msgID → d.time + replayWindow ≤ e.time

/-- What the replay filter knows about the deliveries. -/
structure Receiver.ReplayGuarded (r : Receiver) (now : ℕ) : Prop where
  keyed : r.KeyedById
  remembers : ∀ d ∈ r.delivered, r.Remembers now d
  spaced : r.Spaced

namespace Receiver

variable {r r' : Receiver} {now later : ℕ} {d : Delivery} {rxid : UInt64} {m : InboundMessage}

section

variable (h : r.Remembers now d)

include h

theorem Remembers.mono (hle : now ≤ later) : r.Remembers later d :=
  h.imp (fun past => past.trans hle) id

theorem Remembers.congr (same : r'.replayFilter = r.replayFilter) :
    r'.Remembers now d := by
  rw [Remembers, same]
  exact h

/-- An id that is not in the filter was delivered at least a window ago. -/
theorem Remembers.past_of_not_mem
    (new : d.message.msgID ∉ r.replayFilter) : d.time + replayWindow ≤ now := by
  rcases h with past | ⟨time, found, -⟩
  · exact past
  · exact absurd (mem_iff_exists_getElem?.mpr ⟨time, found⟩) new

/-- A tick forgets an id only when the window since its delivery has passed. -/
theorem Remembers.tick : (r.tick now).Remembers now d := by
  rcases h with past | ⟨time, found, hle⟩
  · exact Or.inl past
  · by_cases fresh : now < time + replayWindow
    · exact Or.inr ⟨time, getElem?_tick_replayFilter.mpr ⟨fresh, Or.inl found⟩, hle⟩
    · left
      omega

/-- Delivering an id that is not in the filter. -/
theorem Remembers.deliver (new : m.msgID ∉ r.replayFilter) :
    (r.deliver now m).Remembers now d := by
  rcases h with past | ⟨time, found, hle⟩
  · exact Or.inl past
  · have other : d.message.msgID ≠ m.msgID := by
      intro same
      exact new (mem_iff_exists_getElem?.mpr ⟨time, same ▸ found⟩)
    refine Or.inr ⟨time, ?_, hle⟩
    rw [deliver_replayFilter, getElem?_insert, if_neg (Ne.symm other)]
    exact found

end

namespace ReplayGuarded

theorem of_eq (h : r.ReplayGuarded now) (keyed : r'.KeyedById)
    (sameFilter : r'.replayFilter = r.replayFilter) (sameLog : r'.delivered = r.delivered) :
    r'.ReplayGuarded now where
  keyed := keyed
  remembers d hd := (h.remembers d (sameLog ▸ hd)).congr sameFilter
  spaced := by
    rw [Spaced, sameLog]
    exact h.spaced

theorem deliver (h : r.ReplayGuarded now) (new : m.msgID ∉ r.replayFilter) :
    (r.deliver now m).ReplayGuarded now where
  keyed := h.keyed
  remembers d hd := by
    rw [deliver_delivered, List.mem_append, List.mem_singleton] at hd
    rcases hd with old | rfl
    · exact (h.remembers d old).deliver new
    · exact Or.inr ⟨now, by simp, le_refl _⟩
  spaced := by
    rw [Spaced, deliver_delivered, List.pairwise_append]
    refine ⟨h.spaced, List.pairwise_singleton _ _, ?_⟩
    intro d old e latest same
    obtain rfl := List.mem_singleton.mp latest
    exact (h.remembers d old).past_of_not_mem (same ▸ new)

theorem verifiedMessage (h : r.ReplayGuarded now) :
    (r.verifiedMessage now rxid).ReplayGuarded now := by
  have keyed : (r.verifiedMessage now rxid).KeyedById :=
    h.keyed.of_subset fun _ _ => getElem?_of_verifiedMessage
  cases found : r.rxMsgs[rxid]? with
  | none =>
    rw [verifiedMessage_of_none found] at keyed ⊢
    exact h.of_eq keyed rfl rfl
  | some m =>
    have same := h.keyed rxid m found
    by_cases replay : rxid ∈ r.replayFilter
    · rw [verifiedMessage_of_mem found same replay] at keyed ⊢
      exact h.of_eq keyed rfl rfl
    · rw [verifiedMessage_of_not_mem found same replay] at keyed ⊢
      exact (h.deliver (same.symm ▸ replay)).of_eq keyed rfl rfl

end ReplayGuarded

end Receiver

namespace Reception

variable {shorthash : List UInt8 → ShortHash} {s t : Reception} {event : Event}

theorem replayGuarded_of_transition (guarded : s.rx.ReplayGuarded s.now)
    (h : Transition shorthash s event t) : t.rx.ReplayGuarded t.now := by
  have keyed := keyedById_of_transition guarded.keyed h
  cases h with
  | wait duration =>
    exact ⟨keyed, fun d hd => (guarded.remembers d hd).mono (Nat.le_add_right ..), guarded.spaced⟩
  | ignored | noRequest | pump | sendMACK | dropped => exact guarded.of_eq keyed rfl rfl
  | xmit data parsed handled =>
    rcases Receiver.handleXMIT_cases handled with ⟨-, rfl⟩ | ⟨-, -, rfl⟩ | ⟨-, -, m, accepted, -⟩
    · exact guarded.of_eq keyed rfl rfl
    · exact guarded.of_eq keyed rfl rfl
    · exact guarded.of_eq keyed accepted.replayFilter_eq accepted.delivered_eq
  | data data parsed handled =>
    rcases Receiver.handleDATA_cases handled with
      ⟨-, -, rfl⟩ | ⟨-, -, rfl⟩ | ⟨e, m, -, -, accepted⟩
    · exact guarded.of_eq keyed rfl rfl
    · exact guarded.of_eq keyed rfl rfl
    · exact guarded.of_eq keyed accepted.replayFilter_eq accepted.delivered_eq
  | verified request asked good =>
    refine Receiver.ReplayGuarded.verifiedMessage ?_
    exact guarded.of_eq guarded.keyed rfl rfl
  | tick => exact ⟨keyed, fun d hd => (guarded.remembers d hd).tick, guarded.spaced⟩

theorem replayGuarded_start (now : ℕ) : (start now).rx.ReplayGuarded now where
  keyed := Receiver.keyedById_empty
  remembers d hd := by simp [start, Receiver.empty] at hd
  spaced := List.Pairwise.nil

/-- Two deliveries of the same message id are at least a replay window apart, in
every run of the receiving half. -/
theorem delivered_spaced_by_replayWindow (shorthash : List UInt8 → ShortHash) (now : ℕ)
    (events : List Event) (s : Reception)
    (hrun : run (step shorthash) (start now) events = some s) :
    s.rx.delivered.Pairwise fun d e =>
      d.message.msgID = e.message.msgID → d.time + replayWindow ≤ e.time := by
  have guarded : s.rx.ReplayGuarded s.now :=
    run_invariant_of_forall (fun s => s.rx.ReplayGuarded s.now)
      (fun _ _ _ guarded hstep => replayGuarded_of_transition guarded (transition_of_step hstep))
      (replayGuarded_start now) hrun
  exact guarded.spaced

/-- The shortest run that delivers one id twice: a tick clears the filter when the
window has passed, and the peer sends the message again. -/
def redeliveryRun : List Event :=
  [.packet (xmitOf 7 1), .verdict 0, .wait replayWindow, .tick, .packet (xmitOf 7 1), .verdict 0]

theorem delivered_spaced_by_replayWindow_redelivery :
    ∃ s, run (step prefixHash) (start 0) redeliveryRun = some s ∧
      s.rx.delivered.map (fun d => (d.message.msgID, d.time)) = [(7, 0), (7, 1200)] ∧
      s.rx.delivered.Pairwise fun d e =>
        d.message.msgID = e.message.msgID → d.time + replayWindow ≤ e.time := by
  obtain ⟨s, hrun⟩ := Option.isSome_iff_exists.mp
    (show (run (step prefixHash) (start 0) redeliveryRun).isSome by decide +kernel)
  have log : (run (step prefixHash) (start 0) redeliveryRun).map
      (fun s => s.rx.delivered.map fun d => (d.message.msgID, d.time)) =
        some [(7, 0), (7, 1200)] := by
    decide +kernel
  rw [hrun] at log
  exact ⟨s, hrun, Option.some.inj log, delivered_spaced_by_replayWindow _ _ _ s hrun⟩

end Reception

end Llarp.Iwp
