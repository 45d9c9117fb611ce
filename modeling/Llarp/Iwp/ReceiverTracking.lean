import Llarp.Iwp.Reception
import Llarp.Iwp.Sender.Invariant

/-!
# What the receiving half knows about one message

`Tracks` is the view of the receiver on a message that its peer still waits for:
a partial copy, copies at the hasher that will be found good, and positive
acknowledgements only for fragments that are there or after delivery. Every step
of the receiver keeps it, except a tick that lets the partial copy time out.
-/

namespace Llarp.Iwp

open Foundation InboundMessage

namespace Receiver

/-- The message was given to `HandleMessage` under this id. -/
def Delivered (r : Receiver) (k : UInt64) (msg : Message) : Prop :=
  ∃ d ∈ r.delivered, d.message.msgID = k ∧ d.message.data = msg.bytes

/-- The receiver has every byte of the message: it delivered it or holds a complete copy. -/
def Received (r : Receiver) (k : UInt64) (msg : Message) : Prop :=
  r.Delivered k msg ∨
    ∃ e, r.rxMsgs[k]? = some e ∧ e.isCompleted = some true ∧ e.data = msg.bytes

/-- The message that was sent under this id, if one was sent, was delivered. -/
def Done (r : Receiver) (k : UInt64) (x : Option Message) : Prop := ∃ msg ∈ x, r.Delivered k msg

/-- Everything that the receiver knows about id `k` comes from the message `x`. It knows nothing if
none was sent. -/
structure Tracks (shorthash : List UInt8 → ShortHash) (r : Receiver) (k : UInt64)
    (x : Option Message) : Prop where
  entry : ∀ e, r.rxMsgs[k]? = some e → ∃ msg ∈ x, e.Holds msg ∧ e.digset = shorthash msg.bytes
  requests : ∀ q ∈ r.verifying, q.msgID = k → q.verify shorthash = true ∧
    (r.Done k x ∨ ∃ e, r.rxMsgs[k]? = some e ∧ e.isCompleted = some true)
  filtered : k ∈ r.replayFilter → r.Done k x
  queued : k ∈ r.sendMACKs → r.Done k x
  multiacked : ∀ ids, .mack ids ∈ r.sent → k ∈ ids → r.Done k x
  acked : ∀ bitmask, .acks k bitmask ∈ r.sent → r.Done k x ∨
    ∃ e, r.rxMsgs[k]? = some e ∧
      ∀ j, bitmask.toBitVec.getLsbD j = true → e.acks.getLsbD j = true
  named : ∀ p ∈ r.sent, k ∈ p.ids → ∃ msg, msg ∈ x

variable {shorthash : List UInt8 → ShortHash} {r r' : Receiver} {k rxid : UInt64}
  {x : Option Message} {now : ℕ} {e m : InboundMessage} {p : Plaintext}

theorem tracks_empty : empty.Tracks shorthash k x := by
  constructor <;> simp [empty]

theorem not_done_none : ¬ r.Done k none := nofun

/-- A receiver that knows nothing about an id tracks every message under it. -/
theorem Tracks.of_none (unknown : r.Tracks shorthash k none) : r.Tracks shorthash k x where
  entry e found := nomatch unknown.entry e found
  requests q hq same := by
    obtain ⟨-, delivered | ⟨e, found, -⟩⟩ := unknown.requests q hq same
    · exact absurd delivered not_done_none
    · exact nomatch unknown.entry e found
  filtered replay := absurd (unknown.filtered replay) not_done_none
  queued waiting := absurd (unknown.queued waiting) not_done_none
  multiacked ids hsent named := absurd (unknown.multiacked ids hsent named) not_done_none
  acked _ hsent := nomatch unknown.named _ hsent (List.mem_singleton_self k)
  named p hp named := nomatch unknown.named p hp named

/-- What a step may do about a tracked message: extend the copy, deliver it, and
acknowledge what is there. -/
structure Progress (shorthash : List UInt8 → ShortHash) (r r' : Receiver) (k : UInt64)
    (x : Option Message) : Prop where
  delivered : ∀ d ∈ r.delivered, d ∈ r'.delivered
  entry : ∀ e, r'.rxMsgs[k]? = some e → ∃ msg ∈ x, e.Holds msg ∧ e.digset = shorthash msg.bytes
  kept : ∀ e, r.rxMsgs[k]? = some e → r'.Done k x ∨
    ∃ e', r'.rxMsgs[k]? = some e' ∧ e'.data.length = e.data.length ∧
      ∀ j, e.acks.getLsbD j = true → e'.acks.getLsbD j = true
  requests : ∀ q ∈ r'.verifying, q.msgID = k → q ∈ r.verifying ∨ (q.verify shorthash = true ∧
    ∃ e, r'.rxMsgs[k]? = some e ∧ e.isCompleted = some true)
  filtered : k ∈ r'.replayFilter → k ∈ r.replayFilter ∨ r'.Done k x
  queued : k ∈ r'.sendMACKs → k ∈ r.sendMACKs ∨ r'.Done k x
  multiacked : ∀ ids, .mack ids ∈ r'.sent → k ∈ ids → .mack ids ∈ r.sent ∨ r'.Done k x
  acked : ∀ bitmask, .acks k bitmask ∈ r'.sent → .acks k bitmask ∈ r.sent ∨
    ∃ e, r'.rxMsgs[k]? = some e ∧
      ∀ j, bitmask.toBitVec.getLsbD j = true → e.acks.getLsbD j = true
  named : ∀ p ∈ r'.sent, k ∈ p.ids → p ∈ r.sent ∨ ∃ msg, msg ∈ x

theorem Done.mono (h : r.Done k x) (sub : ∀ d ∈ r.delivered, d ∈ r'.delivered) : r'.Done k x := by
  obtain ⟨msg, sent, d, hd, rest⟩ := h
  exact ⟨msg, sent, d, sub d hd, rest⟩

/-- A completed copy stays complete while its bits grow. -/
theorem isCompleted_mono {e' : InboundMessage} (complete : e.isCompleted = some true)
    (sameLength : e'.data.length = e.data.length)
    (more : ∀ j, e.acks.getLsbD j = true → e'.acks.getLsbD j = true) :
    e'.isCompleted = some true := by
  rw [isCompleted_eq_some_true] at complete ⊢
  intro i inside
  exact more _ (complete i (sameLength ▸ inside))

theorem Tracks.progress (tracks : r.Tracks shorthash k x)
    (prog : Progress shorthash r r' k x) : r'.Tracks shorthash k x where
  entry := prog.entry
  requests q hq same := by
    rcases prog.requests q hq same with old | ⟨good, complete⟩
    · obtain ⟨good, delivered | ⟨e, found, complete⟩⟩ := tracks.requests q old same
      · exact ⟨good, Or.inl (delivered.mono prog.delivered)⟩
      · refine ⟨good, (prog.kept e found).imp id ?_⟩
        rintro ⟨e', found', sameLength, more⟩
        exact ⟨e', found', isCompleted_mono complete sameLength more⟩
    · exact ⟨good, Or.inr complete⟩
  filtered replay :=
    (prog.filtered replay).elim (fun old => (tracks.filtered old).mono prog.delivered) id
  queued waiting :=
    (prog.queued waiting).elim (fun old => (tracks.queued old).mono prog.delivered) id
  multiacked ids hsent named :=
    (prog.multiacked ids hsent named).elim
      (fun old => (tracks.multiacked ids old named).mono prog.delivered) id
  acked bitmask hsent := by
    rcases prog.acked bitmask hsent with old | new
    · rcases tracks.acked bitmask old with delivered | ⟨e, found, covered⟩
      · exact Or.inl (delivered.mono prog.delivered)
      · refine (prog.kept e found).imp id ?_
        rintro ⟨e', found', -, more⟩
        exact ⟨e', found', fun j hj => more j (covered j hj)⟩
    · exact Or.inr new
  named p hp named := (prog.named p hp named).elim (fun old => tracks.named p old named) id

/-- A step that leaves everything about the id alone. -/
theorem Progress.of_frame (tracks : r.Tracks shorthash k x)
    (delivered : ∀ d ∈ r.delivered, d ∈ r'.delivered) (entry : r'.rxMsgs[k]? = r.rxMsgs[k]?)
    (requests : ∀ q ∈ r'.verifying, q.msgID = k → q ∈ r.verifying)
    (filtered : k ∈ r'.replayFilter → k ∈ r.replayFilter)
    (queued : k ∈ r'.sendMACKs → k ∈ r.sendMACKs)
    (packets : ∀ p ∈ r'.sent, k ∈ p.ids → p ∈ r.sent ∨ p = .nack k ∧ ∃ msg, msg ∈ x) :
    Progress shorthash r r' k x where
  delivered := delivered
  entry e found := tracks.entry e (entry ▸ found)
  kept e found := Or.inr ⟨e, entry ▸ found, rfl, fun _ => id⟩
  requests q hq same := Or.inl (requests q hq same)
  filtered replay := Or.inl (filtered replay)
  queued waiting := Or.inl (queued waiting)
  multiacked ids hsent named := by
    rcases packets _ hsent named with old | ⟨new, -⟩
    · exact Or.inl old
    · cases new
  acked bitmask hsent := by
    rcases packets _ hsent (List.mem_singleton_self k) with old | ⟨new, -⟩
    · exact Or.inl old
    · cases new
  named p hp named := (packets p hp named).imp_right And.right

/-! ### Packets -/

variable {sz idx : UInt16} {h : ShortHash} {fragment : List UInt8}

/-- The multiack queue gets an id only after its delivery. -/
theorem Progress.queueMACK (tracks : r.Tracks shorthash k x) (replay : rxid ∈ r.replayFilter) :
    Progress shorthash r (r.queueMACK rxid) k x := by
  have frame : Progress shorthash r r k x :=
    .of_frame tracks (fun _ => id) rfl (fun _ hq _ => hq) id id fun _ hp _ => Or.inl hp
  refine { frame with queued := fun waiting => ?_ }
  rw [queueMACK_sendMACKs, List.mem_orderedInsert] at waiting
  rcases waiting with rfl | old
  · exact Or.inr (tracks.filtered replay)
  · exact Or.inl old

/-- An entry of another message was replaced. -/
theorem Progress.accepted_other (tracks : r.Tracks shorthash k x) (other : rxid ≠ k)
    (same : m.msgID = rxid) (accepted : Accepted r rxid m r') :
    Progress shorthash r r' k x := by
  refine .of_frame tracks ?_ ?_ ?_ ?_ ?_ ?_
  · rw [accepted.delivered_eq]
    exact fun _ => id
  · rw [accepted.rxMsgs_eq, getElem?_insert, if_neg other]
  · intro q hq hid
    rcases accepted.mem_verifying hq with old | ⟨rfl, -⟩
    · exact old
    · exact absurd (same.symm.trans hid) other
  · rw [accepted.replayFilter_eq]
    exact id
  · rw [accepted.sendMACKs_eq]
    exact id
  · rw [accepted.sent_eq]
    exact fun _ hp _ => Or.inl hp

/-- The copy of the message was extended. -/
theorem Progress.accepted (copy : ∃ msg ∈ x, m.Holds msg ∧ m.digset = shorthash msg.bytes)
    (grows : ∀ e, r.rxMsgs[k]? = some e → m.data.length = e.data.length ∧
      ∀ j, e.acks.getLsbD j = true → m.acks.getLsbD j = true)
    (accepted : Accepted r k m r') : Progress shorthash r r' k x := by
  have stored : r'.rxMsgs[k]? = some m := by
    rw [accepted.rxMsgs_eq, getElem?_insert, if_pos rfl]
  constructor
  case delivered =>
    rw [accepted.delivered_eq]
    exact fun _ => id
  case entry =>
    intro e found
    cases stored.symm.trans found
    exact copy
  case kept => exact fun e found => Or.inr ⟨m, stored, grows e found⟩
  case requests =>
    intro q hq _
    refine (accepted.mem_verifying hq).imp id ?_
    rintro ⟨rfl, complete⟩
    obtain ⟨msg, -, holds, digset⟩ := copy
    refine ⟨decide_eq_true ?_, q, stored, complete⟩
    rw [holds.eq_of_isCompleted complete, digset]
  case filtered =>
    rw [accepted.replayFilter_eq]
    exact Or.inl
  case queued =>
    rw [accepted.sendMACKs_eq]
    exact Or.inl
  case multiacked =>
    rw [accepted.sent_eq]
    exact fun _ hsent _ => Or.inl hsent
  case acked =>
    rw [accepted.sent_eq]
    exact fun _ => Or.inl
  case named =>
    rw [accepted.sent_eq]
    exact fun _ hp _ => Or.inl hp

/-- An announcement: of another message, or the right one. -/
theorem Tracks.handleXMIT (tracks : r.Tracks shorthash k x)
    (mine : rxid = k → ∃ msg ∈ x, SentFor k msg (shorthash msg.bytes) (.xmit sz rxid h fragment))
    (handled : r.handleXMIT now sz rxid h fragment = some r') : r'.Tracks shorthash k x := by
  rcases handleXMIT_cases handled with ⟨replay, rfl⟩ | ⟨-, -, rfl⟩ | ⟨-, absent, m, accepted, origin⟩
  · exact tracks.progress (.queueMACK tracks replay)
  · exact tracks
  · by_cases same : rxid = k
    · subst same
      obtain ⟨msg, sent, ⟨⟩⟩ := mine rfl
      have copy : m.Holds msg ∧ m.digset = shorthash msg.bytes := by
        rcases origin with ⟨rfl, -⟩ | ⟨-, hm⟩
        · exact ⟨holds_new rxid msg _ now, rfl⟩
        · obtain ⟨m', hm', holds, -⟩ := handleXMIT_whole msg rxid (shorthash msg.bytes) now
          cases hm.symm.trans hm'
          exact ⟨holds, digset_handleData hm⟩
      refine tracks.progress (.accepted ⟨msg, sent, copy⟩ (fun e found => ?_) accepted)
      rw [absent] at found
      cases found
    · refine tracks.progress (.accepted_other tracks same ?_ accepted)
      rcases origin with ⟨rfl, -⟩ | ⟨-, hm⟩
      · rfl
      · exact msgID_handleData hm

/-- A fragment: of another message, or a right one. -/
theorem Tracks.handleDATA (tracks : r.Tracks shorthash k x) (keyed : r.KeyedById)
    (mine : rxid = k → ∃ msg ∈ x, SentFor k msg (shorthash msg.bytes) (.data idx rxid fragment))
    (handled : r.handleDATA now idx rxid fragment = some r') : r'.Tracks shorthash k x := by
  rcases handleDATA_cases handled with
    ⟨-, replay, rfl⟩ | ⟨-, -, rfl⟩ | ⟨e, m, found, hm, accepted⟩
  · exact tracks.progress (.queueMACK tracks replay)
  · refine tracks.progress (.of_frame tracks (fun _ => id) rfl (fun _ hq _ => hq) id id ?_)
    intro p hp named
    rw [send_sent, List.mem_append, List.mem_singleton] at hp
    rcases hp with old | rfl
    · exact Or.inl old
    · obtain rfl := List.mem_singleton.mp named
      obtain ⟨msg, sent, -⟩ := mine rfl
      exact Or.inr ⟨rfl, msg, sent⟩
  · by_cases same : rxid = k
    · subst same
      obtain ⟨msg, sent, holds, digset⟩ := tracks.entry e found
      obtain ⟨_, same, named⟩ := mine rfl
      cases sent.symm.trans same
      cases named with
      | data j inside =>
        have bound : msg.size ≤ 8192 := msg.size_le
        obtain ⟨m', hm', holds', -, bits⟩ := holds.handleData (by omega) inside.le now
        cases hm.symm.trans hm'
        refine tracks.progress (.accepted ⟨msg, sent, holds', ?_⟩ (fun e' found' => ?_) accepted)
        · rw [digset_handleData hm, digset]
        · cases found.symm.trans found'
          refine ⟨length_handleData hm, fun i hi => ?_⟩
          rw [bits, hi]
          rfl
    · refine tracks.progress (.accepted_other tracks same ?_ accepted)
      exact (msgID_handleData hm).trans (keyed rxid e found)

theorem Tracks.handle (tracks : r.Tracks shorthash k x) (keyed : r.KeyedById)
    (mine : k ∈ p.ids → ∃ msg ∈ x, SentFor k msg (shorthash msg.bytes) p)
    (handled : r.handle now p = some r') : r'.Tracks shorthash k x := by
  cases p with
  | xmit sz rxid h fragment =>
    exact tracks.handleXMIT (fun same => mine (same ▸ List.mem_singleton_self rxid)) handled
  | data idx rxid fragment =>
    exact tracks.handleDATA keyed (fun same => mine (same ▸ List.mem_singleton_self rxid)) handled
  | _ =>
    cases handled
    exact tracks

/-! ### Verdicts and periodic calls -/

section

variable (tracks : r.Tracks shorthash k x)

include tracks

/-- Something under another id was forgotten or delivered. -/
theorem Progress.dropMessage_other (other : rxid ≠ k) :
    Progress shorthash r (r.dropMessage rxid) k x := by
  refine .of_frame tracks (fun _ => id) ?_ (fun _ hq _ => hq) id id fun _ hp _ => Or.inl hp
  rw [dropMessage_rxMsgs, getElem?_erase, if_neg other]

theorem Tracks.deliver_other (other : m.msgID ≠ k) :
    ((r.deliver now m).queueMACK m.msgID).Tracks shorthash k x := by
  refine tracks.progress
    (.of_frame tracks ?_ rfl (fun _ hq _ => hq) ?_ ?_ fun _ hp _ => Or.inl hp)
  · exact fun d => List.mem_append_left _
  · intro replay
    rcases Std.ExtTreeMap.mem_insert.mp replay with same | old
    · exact absurd (Std.LawfulEqOrd.compare_eq_iff_eq.mp same) other
    · exact old
  · intro waiting
    rw [queueMACK_sendMACKs, List.mem_orderedInsert] at waiting
    exact waiting.resolve_left (Ne.symm other)

/-- Once the message is delivered, everything else may be forgotten. -/
theorem Tracks.dropMessage_delivered (delivered : r.Done k x) :
    (r.dropMessage rxid).Tracks shorthash k x where
  entry e found := tracks.entry e (getElem?_of_dropMessage found)
  requests q hq same := ⟨(tracks.requests q hq same).1, Or.inl delivered⟩
  filtered _ := delivered
  queued _ := delivered
  multiacked _ _ _ := delivered
  acked _ _ := Or.inl delivered
  named := tracks.named

/-- A good verdict on the message itself delivers it. -/
theorem Tracks.verifiedMessage (keyed : r.KeyedById)
    (complete : rxid = k → r.Done k x ∨
      ∃ e, r.rxMsgs[k]? = some e ∧ e.isCompleted = some true) :
    (r.verifiedMessage now rxid).Tracks shorthash k x := by
  cases found : r.rxMsgs[rxid]? with
  | none =>
    rw [verifiedMessage_of_none found]
    exact tracks.progress
      (.of_frame tracks (fun _ => id) rfl (fun _ hq _ => hq) id id fun _ hp _ => Or.inl hp)
  | some m =>
    have same := keyed rxid m found
    by_cases replay : rxid ∈ r.replayFilter
    · rw [verifiedMessage_of_mem found same replay]
      by_cases here : rxid = k
      · subst here
        exact tracks.dropMessage_delivered (tracks.filtered replay)
      · exact tracks.progress (.dropMessage_other tracks here)
    · rw [verifiedMessage_of_not_mem found same replay]
      by_cases here : rxid = k
      · subst here
        have delivered : ((r.deliver now m).queueMACK rxid).Done rxid x := by
          rcases complete rfl with before | ⟨e, found', done⟩
          · exact before.mono fun d => List.mem_append_left _
          · cases found.symm.trans found'
            obtain ⟨msg, sent, holds, -⟩ := tracks.entry m found
            exact ⟨msg, sent, ⟨m, now⟩, by simp, same, holds.eq_of_isCompleted done⟩
        refine Tracks.dropMessage_delivered ?_ delivered
        exact
          { entry := tracks.entry
            requests := fun q hq hid => ⟨(tracks.requests q hq hid).1, Or.inl delivered⟩
            filtered := fun _ => delivered
            queued := fun _ => delivered
            multiacked := fun _ _ _ => delivered
            acked := fun _ _ => Or.inl delivered
            named := tracks.named }
      · subst same
        have tracks' : ((r.deliver now m).queueMACK m.msgID).Tracks shorthash k x :=
          tracks.deliver_other here
        exact tracks'.progress (.dropMessage_other tracks' here)

/-- The verdict on any outstanding request. -/
theorem Tracks.answer (keyed : r.KeyedById) (request : ℕ) :
    (Reception.answer shorthash r now request).Tracks shorthash k x := by
  rw [Reception.answer]
  cases asked : r.verifying[request]? with
  | none => exact tracks
  | some q =>
    have hq := List.mem_of_getElem? asked
    have fewer : { r with verifying := r.verifying.eraseIdx request }.Tracks shorthash k x :=
      tracks.progress (.of_frame tracks (fun _ => id) rfl
        (fun _ hq _ => List.mem_of_mem_eraseIdx hq) id id fun _ hp _ => Or.inl hp)
    dsimp only [verdict]
    split_ifs with good
    · refine fewer.verifiedMessage keyed fun same => ?_
      exact (tracks.requests q hq same).2
    · have other : q.msgID ≠ k := fun same => good (tracks.requests q hq same).1
      exact fewer.progress (.dropMessage_other fewer other)

/-- Acknowledgements name the fragments that are there. -/
theorem Tracks.pump (keyed : r.KeyedById) : (r.pump now).Tracks shorthash k x := by
  refine tracks.progress ?_
  constructor
  case delivered => exact fun _ => id
  case requests => exact fun _ hq _ => Or.inl hq
  case filtered => exact Or.inl
  case queued => exact Or.inl
  case entry =>
    intro e found
    rw [getElem?_pump_rxMsgs] at found
    obtain ⟨m, hm, rfl⟩ := Option.map_eq_some_iff.mp found
    obtain ⟨msg, sent, holds, digset⟩ := tracks.entry m hm
    split_ifs
    · exact ⟨msg, sent, ⟨holds.length_eq, holds.agrees⟩, digset⟩
    · exact ⟨msg, sent, holds, digset⟩
  case kept =>
    intro e found
    refine Or.inr ⟨_, by rw [getElem?_pump_rxMsgs, found, Option.map_some], ?_⟩
    split_ifs
    · exact ⟨rfl, fun _ => id⟩
    · exact ⟨rfl, fun _ => id⟩
  case multiacked =>
    intro _ hsent _
    refine (List.mem_append.mp hsent).imp id fun new => ?_
    obtain ⟨entry, -, other⟩ := List.mem_map.mp new
    cases other
  case acked =>
    intro _ hsent
    refine (List.mem_append.mp hsent).imp id fun new => ?_
    obtain ⟨⟨key, e⟩, hentry, same⟩ := List.mem_map.mp new
    have found := Std.ExtTreeMap.mem_toList_iff_getElem?_eq_some.mp (List.mem_filter.mp hentry).1
    injection same with hid hmask
    obtain rfl : key = k := (keyed key e found).symm.trans hid
    refine ⟨_, by rw [getElem?_pump_rxMsgs, found, Option.map_some], fun j hj => ?_⟩
    rw [← hmask] at hj
    split_ifs
    · exact hj
    · exact hj
  case named =>
    intro p hsent named
    refine (List.mem_append.mp hsent).imp id fun new => ?_
    obtain ⟨⟨key, e⟩, hentry, rfl⟩ := List.mem_map.mp new
    have found := Std.ExtTreeMap.mem_toList_iff_getElem?_eq_some.mp (List.mem_filter.mp hentry).1
    obtain rfl : k = key := (List.mem_singleton.mp named).trans (keyed key e found)
    obtain ⟨msg, sent, -⟩ := tracks.entry e found
    exact ⟨msg, sent⟩

/-- A tick keeps track of the message if its copy does not time out. -/
theorem Tracks.tick (active : ∀ e, r.rxMsgs[k]? = some e → e.isTimedOut now = false) :
    (r.tick now).Tracks shorthash k x := by
  refine tracks.progress (.of_frame tracks (fun _ => id) ?_ (fun _ hq _ => hq) ?_ id
    fun _ hp _ => Or.inl hp)
  · rw [getElem?_tick_rxMsgs]
    cases found : r.rxMsgs[k]? with
    | none => rfl
    | some e => simp [active e found]
  · intro replay
    obtain ⟨time, found⟩ := mem_iff_exists_getElem?.mp replay
    obtain ⟨-, old | ⟨-, -, e, stored, timedOut⟩⟩ := getElem?_tick_replayFilter.mp found
    · exact mem_iff_exists_getElem?.mpr ⟨time, old⟩
    · rw [active e stored] at timedOut
      cases timedOut

end

theorem mem_of_mem_mackIds {ids queue : List UInt64} (h : ids ∈ mackIds queue) (named : k ∈ ids) :
    k ∈ queue := by
  obtain ⟨i, -, rfl⟩ := List.mem_map.mp h
  exact List.mem_of_mem_drop (List.mem_of_mem_take named)

theorem Tracks.sendMACK (tracks : r.Tracks shorthash k x) :
    r.sendMACK.Tracks shorthash k x where
  entry := tracks.entry
  requests := tracks.requests
  filtered := tracks.filtered
  queued waiting := by cases waiting
  multiacked ids hsent named := by
    rcases List.mem_append.mp hsent with old | new
    · exact tracks.multiacked ids old named
    · obtain ⟨ids', hids, same⟩ := List.mem_map.mp new
      injection same with same
      subst same
      exact tracks.queued (mem_of_mem_mackIds hids named)
  acked bitmask hsent := by
    rcases List.mem_append.mp hsent with old | new
    · exact tracks.acked bitmask old
    · obtain ⟨ids', -, other⟩ := List.mem_map.mp new
      cases other
  named p hsent named := by
    rcases List.mem_append.mp hsent with old | new
    · exact tracks.named p old named
    · obtain ⟨ids, hids, rfl⟩ := List.mem_map.mp new
      obtain ⟨msg, sent, -⟩ := tracks.queued (mem_of_mem_mackIds hids named)
      exact ⟨msg, sent⟩

end Receiver

end Llarp.Iwp
