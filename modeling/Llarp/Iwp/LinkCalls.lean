import Llarp.Iwp.Sender.Completion
import Llarp.Iwp.Session

/-!
# What a session asks of its link layer

Every call of `MapAddr` and `UnmapAddr` is traced back to what the session was and what
happened to it. A session unmaps its address only when it ends up closed.
-/

namespace Llarp.Iwp.Session

open Foundation

variable {H : Type} {host : Host} {s t : Session H} {m : Moment}
  {establishes establishes' : PubKey → Prop} {closes closes' : Prop}

theorem close_of_closed (closed : s.state = .closed) : s.close = s := if_pos closed

@[simp] theorem state_close : s.close.state = .closed := by
  by_cases closed : s.state = .closed
  · rw [close_of_closed closed]
    exact closed
  · rw [close, if_neg closed]

@[simp] theorem remoteRC_close : s.close.remoteRC = s.remoteRC := by
  by_cases closed : s.state = .closed
  · rw [close_of_closed closed]
  · rw [close, if_neg closed]

theorem state_establish {inbound : Bool} :
    (s.establish m inbound).state =
      if m.refuses s.remoteRC.pubkey then .closed else .ready := by
  unfold establish
  split_ifs
  · exact state_close
  · rfl

@[simp] theorem remoteRC_establish {inbound : Bool} :
    (s.establish m inbound).remoteRC = s.remoteRC := by
  unfold establish
  split_ifs
  · exact remoteRC_close
  · rfl

/-- The step maps only routers with `establishes`, and unmaps the address of the session
only when `closes` holds and the session ends up closed. It does both only for a router
that the link layer refuses. -/
def Effect (m : Moment) (s t : Session H) (establishes : PubKey → Prop) (closes : Prop) : Prop :=
  t.remoteAddr = s.remoteAddr ∧ ∃ called, t.calls = s.calls ++ called ∧
    (∀ pk, .mapAddr pk ∈ called → establishes pk) ∧
    (.unmapAddr ∈ called → closes ∧ t.state = .closed) ∧
    (.unmapAddr ∈ called → ∀ pk, .mapAddr pk ∈ called → m.refuses pk = true)

/-! ### The order of the calls

The handler is called right after the router was mapped, or right after the session was
closed because its router was refused. -/

/-- The calls of one or more operations, in order. -/
inductive Ordered (m : Moment) : List LinkCall → Prop where
  | nil : Ordered m []
  | unmap {called : List LinkCall} : Ordered m called → Ordered m (.unmapAddr :: called)
  | renegotiate {called : List LinkCall} (rc : RouterContact) :
    Ordered m called → Ordered m (.sessionRenegotiate rc :: called)
  | ready {called : List LinkCall} (pk : PubKey) (inbound : Bool) (taken : m.refuses pk = false) :
    Ordered m called → Ordered m (.mapAddr pk :: .sessionEstablished pk .ready inbound :: called)
  | refused {called : List LinkCall} (pk : PubKey) (inbound : Bool) (refused : m.refuses pk = true) :
    Ordered m called →
      Ordered m (.mapAddr pk :: .unmapAddr :: .sessionEstablished pk .closed inbound :: called)

theorem Ordered.append {called later : List LinkCall} (first : Ordered m called)
    (second : Ordered m later) : Ordered m (called ++ later) := by
  induction first with
  | nil => exact second
  | unmap _ ih => exact .unmap ih
  | renegotiate rc _ ih => exact .renegotiate rc ih
  | ready pk inbound taken _ ih => exact .ready pk inbound taken ih
  | refused pk inbound refused _ ih => exact .refused pk inbound refused ih

/-- Going from `s` to `t` the session made its calls in order. -/
def Orderly (m : Moment) (s t : Session H) : Prop :=
  ∃ called, t.calls = s.calls ++ called ∧ Ordered m called

/-- Both at once, for the same calls. A router that is mapped decides whether the session ends up
closed, and without a call it is closed as before. -/
def Trace (m : Moment) (s t : Session H) (establishes : PubKey → Prop) (closes : Prop) : Prop :=
  t.remoteAddr = s.remoteAddr ∧ ∃ called, t.calls = s.calls ++ called ∧ Ordered m called ∧
    (∀ pk, .mapAddr pk ∈ called ↔ establishes pk) ∧
    (.unmapAddr ∈ called → closes ∧ t.state = .closed) ∧
    (∀ pk, establishes pk → (t.state = .closed ↔ m.refuses pk = true)) ∧
    ((∀ pk, ¬establishes pk) → .unmapAddr ∉ called → (t.state = .closed ↔ s.state = .closed))

namespace Trace

theorem effect (trace : Trace m s t establishes closes) : Effect m s t establishes closes := by
  obtain ⟨addr, called, calls, -, maps, unmaps, settles, -⟩ := trace
  exact ⟨addr, called, calls, fun pk => (maps pk).mp, unmaps,
    fun hun pk hpk => (settles pk ((maps pk).mp hpk)).mp (unmaps hun).2⟩

theorem orderly (trace : Trace m s t establishes closes) : Orderly m s t := by
  obtain ⟨-, called, calls, ordered, -⟩ := trace
  exact ⟨called, calls, ordered⟩

/-- A closed session is closed again unless it maps a router that is not refused. -/
theorem closed_iff (trace : Trace m s t establishes closes) (closed : s.state = .closed) :
    t.state = .closed ↔ ∀ pk, establishes pk → m.refuses pk = true := by
  obtain ⟨-, called, -, -, -, unmaps, settles, keeps⟩ := trace
  by_cases some : ∃ pk, establishes pk
  · obtain ⟨pk, mapped⟩ := some
    exact ⟨fun after pk mapped => (settles pk mapped).mp after,
      fun refused => (settles pk mapped).mpr (refused pk mapped)⟩
  · refine iff_of_true ?_ fun pk mapped => absurd ⟨pk, mapped⟩ some
    by_cases hun : .unmapAddr ∈ called
    · exact (unmaps hun).2
    · exact (keeps (not_exists.mp some) hun).mpr closed

theorem of_eq (none : ∀ pk, ¬establishes pk) (addr : t.remoteAddr = s.remoteAddr)
    (calls : t.calls = s.calls) (state : t.state = .closed ↔ s.state = .closed) :
    Trace m s t establishes closes :=
  ⟨addr, [], by simp [calls], .nil, by simp [none], by simp, fun pk mapped => (none pk mapped).elim,
    fun _ _ => state⟩

theorem mono (trace : Trace m s t establishes closes)
    (same : ∀ pk, establishes pk ↔ establishes' pk) (himp : closes → closes') :
    Trace m s t establishes' closes' := by
  obtain rfl : establishes = establishes' := funext fun pk => propext (same pk)
  obtain ⟨addr, called, calls, ordered, maps, unmaps, rest⟩ := trace
  exact ⟨addr, called, calls, ordered, maps, fun hun => ⟨himp (unmaps hun).1, (unmaps hun).2⟩, rest⟩

end Trace

theorem trace_close : Trace m s s.close (fun _ => False) (s.state ≠ .closed) := by
  by_cases closed : s.state = .closed
  · rw [close_of_closed closed]
    exact .of_eq (fun _ => id) rfl rfl .rfl
  · refine ⟨?_, [.unmapAddr], ?_, .unmap .nil, by simp, fun _ => ⟨closed, state_close⟩, nofun, by simp⟩
    · rw [close, if_neg closed]
    · rw [close, if_neg closed]

variable {data : List UInt8} {inbound : Bool} {ourLIM : Option Message} {at_ : Moment × Event H}

theorem calls_establish :
    ∃ called, (s.establish m inbound).calls = s.calls ++ called ∧ Ordered m called ∧
      (∀ pk, .mapAddr pk ∈ called ↔ pk = s.remoteRC.pubkey) ∧
      (.unmapAddr ∈ called → m.refuses s.remoteRC.pubkey = true) := by
  by_cases refused : m.refuses s.remoteRC.pubkey = true
  · refine ⟨[.mapAddr s.remoteRC.pubkey, .unmapAddr,
      .sessionEstablished s.remoteRC.pubkey .closed inbound], ?_, .refused _ _ refused .nil, by simp,
      fun _ => refused⟩
    simp [establish, refused, close]
  · refine ⟨[.mapAddr s.remoteRC.pubkey,
      .sessionEstablished s.remoteRC.pubkey .ready inbound], ?_,
      .ready _ _ (Bool.eq_false_of_not_eq_true refused) .nil, by simp, by simp⟩
    simp [establish, refused]

theorem remoteAddr_close : s.close.remoteAddr = s.remoteAddr :=
  (trace_close (m := ⟨0, fun _ => false⟩)).1

theorem remoteAddr_establish : (s.establish m inbound).remoteAddr = s.remoteAddr := by
  unfold establish
  split_ifs
  · exact remoteAddr_close
  · rfl

theorem trace_establish :
    Trace m s (s.establish m inbound) (· = s.remoteRC.pubkey)
      (m.refuses s.remoteRC.pubkey = true) := by
  obtain ⟨called, calls, ordered, onlyThis, refused⟩ := @calls_establish H s m inbound
  refine ⟨remoteAddr_establish, called, calls, ordered, onlyThis, fun hun => ⟨refused hun, ?_⟩, ?_,
    fun none => (none _ rfl).elim⟩
  · rw [state_establish, if_pos (refused hun)]
  · rintro - rfl
    simp [state_establish]

/-! ### Handlers -/

variable {outcome : Outcome (Handler H)} {outcomes called : List (Outcome (Handler H))}
  {plane : DataPlane (Handler H)}

theorem remoteRC_completed : (s.completed m outcome).remoteRC = s.remoteRC := by
  unfold completed
  split
  · rfl
  · exact remoteRC_establish
  · exact remoteRC_close

theorem withPlane_eq (outcomes : plane.tx.outcomes = s.plane.tx.outcomes ++ called) :
    s.withPlane m plane = called.foldl (completed m) { s with plane := plane } := by
  rw [withPlane, outcomes, List.drop_left]

/-- Dropped messages close the session if our link introduction is among them. -/
theorem foldl_dropped (dropped : ∀ o ∈ outcomes, o.status = .dropped) :
    (∃ o ∈ outcomes, o.handler = .lim) ∧ outcomes.foldl (completed m) s = s.close ∨
      outcomes.foldl (completed m) s = s := by
  induction outcomes generalizing s with
  | nil => exact Or.inr rfl
  | cons o outcomes ih =>
    obtain ⟨head, rest⟩ := List.forall_mem_cons.mp dropped
    cases lim : o.handler with
    | user handler =>
      have first : s.completed m o = s := by simp [completed, lim]
      rw [List.foldl_cons, first]
      refine (ih rest).imp (fun ⟨⟨o', ho', hlim⟩, hs⟩ => ⟨⟨o', ?_, hlim⟩, hs⟩) id
      exact List.mem_cons_of_mem o ho'
    | lim =>
      have first : s.completed m o = s.close := by simp [completed, lim, head]
      refine Or.inl ⟨⟨o, List.mem_cons_self, lim⟩, ?_⟩
      rw [List.foldl_cons, first]
      rcases ih rest with ⟨-, hs⟩ | hs
      · rw [hs, close_of_closed state_close]
      · exact hs

theorem trace_foldl_dropped (dropped : ∀ o ∈ outcomes, o.status = .dropped) :
    Trace m s (outcomes.foldl (completed m) s) (fun _ => False)
      (s.state ≠ .closed ∧ ∃ o ∈ outcomes, o.handler = .lim) := by
  rcases foldl_dropped dropped with ⟨lim, hs⟩ | hs
  · rw [hs]
    exact trace_close.mono (fun _ => .rfl) fun opened => ⟨opened, lim⟩
  · rw [hs]
    exact .of_eq (fun _ => id) rfl rfl .rfl

theorem trace_foldl_success (success : ∀ o ∈ outcomes, o.status = .success) :
    Trace m s (outcomes.foldl (completed m) s)
      (fun pk => pk = s.remoteRC.pubkey ∧ ∃ o ∈ outcomes, o.handler = .lim)
      (m.refuses s.remoteRC.pubkey = true ∧ ∃ o ∈ outcomes, o.handler = .lim) := by
  induction outcomes generalizing s with
  | nil => exact .of_eq (by simp) rfl rfl .rfl
  | cons o outcomes ih =>
    obtain ⟨head, rest⟩ := List.forall_mem_cons.mp success
    have later := ih (s := s.completed m o) rest
    rw [remoteRC_completed] at later
    cases lim : o.handler with
    | user handler =>
      have first : s.completed m o = s := by simp [completed, lim]
      rw [first] at later
      rw [List.foldl_cons, first]
      exact later.mono (by simp [lim]) (by simp [lim])
    | lim =>
      have first : s.completed m o = s.establish m false := by simp [completed, lim, head]
      rw [first] at later
      rw [List.foldl_cons, first]
      have here : ∃ o' ∈ o :: outcomes, o'.handler = .lim := ⟨o, List.mem_cons_self, lim⟩
      obtain ⟨addr, called, calls, ordered, maps, unmaps, decides, -⟩ :=
        trace_establish
      obtain ⟨addr', called', calls', ordered', maps', unmaps', decides', keeps⟩ := later
      -- the first introduction decides, and the others decide in the same way
      have settles : (outcomes.foldl (completed m) (s.establish m false)).state = .closed ↔
          m.refuses s.remoteRC.pubkey = true := by
        by_cases more : ∃ o' ∈ outcomes, o'.handler = .lim
        · exact decides' _ ⟨rfl, more⟩
        · rw [keeps (fun pk mapped => more mapped.2) fun hun => more (unmaps' hun).1.2]
          exact decides _ rfl
      refine ⟨addr'.trans addr, called ++ called', by rw [calls', calls, List.append_assoc],
        ordered.append ordered', fun pk => ?_, fun hun => ?_, fun pk mapped => mapped.1 ▸ settles,
        fun none => (none _ ⟨rfl, here⟩).elim⟩
      · rw [List.mem_append, maps, maps']
        exact ⟨fun mapped => ⟨mapped.elim id And.left, here⟩, fun mapped => .inl mapped.1⟩
      · have refused : m.refuses s.remoteRC.pubkey = true :=
          (List.mem_append.mp hun).elim (fun old => (unmaps old).1) fun new => (unmaps' new).1.1
        exact ⟨⟨refused, here⟩, settles.mpr refused⟩

/-! ### Steps -/

/-- The step tells the link layer that the session with this router is ready. -/
def Establishes (host : Host) (s : Session H) (at_ : Moment × Event H) (pk : PubKey) : Prop :=
  match at_.2 with
  | .verdict request _ => s.gotLIM = .inbound ∧ pk = s.expectedIdent ∧
    ∃ e, Reception.due host.shorthash s.plane.rx request = some e ∧
      ∃ rc, host.linkIntro at_.1.now e.data = some rc ∧ rc.pubkey = s.expectedIdent
  | .plaintext index => pk = s.remoteRC.pubkey ∧
    ∃ data, s.plaintextRecv[index]? = some data ∧
      ∃ p, parse data = some p ∧ s.plane.tx.Answers p .lim
  | _ => False

/-- The step closes an open session: it is told so, or our link introduction is dropped. -/
def Closes (host : Host) (s : Session H) (at_ : Moment × Event H) : Prop :=
  s.state ≠ .closed ∧
    match at_.2 with
    | .close => True
    | .plaintext index => ∃ data, s.plaintextRecv[index]? = some data ∧ parse data = some .clos
    | .tick => ∃ entry ∈ s.plane.tx.txMsgs.toList,
      entry.2.isTimedOut at_.1.now = true ∧ entry.2.completed = some .lim
    | .verdict request ourLIM => s.gotLIM = .outbound ∧ ourLIM.isSome = true ∧
      maxSendQueueSize ≤ s.plane.tx.txMsgs.size ∧
      ∃ e, Reception.due host.shorthash s.plane.rx request = some e ∧
        ∃ rc, host.linkIntro at_.1.now e.data = some rc ∧ rc.pubkey = s.remoteRC.pubkey
    | _ => False

/-- The link layer closes the session when it is told of a router that it refuses. -/
def Refused (host : Host) (s : Session H) (at_ : Moment × Event H) : Prop :=
  ∃ pk, s.Establishes host at_ pk ∧ at_.1.refuses pk = true

theorem Establishes.mem {pk : PubKey} (h : s.Establishes host at_ pk) :
    pk ∈ [s.expectedIdent, s.remoteRC.pubkey] := by
  obtain ⟨m, event⟩ := at_
  cases event with
  | verdict request ourLIM => exact h.2.1 ▸ List.mem_cons_self
  | plaintext index => exact h.1 ▸ List.mem_cons_of_mem _ List.mem_cons_self
  | _ => exact h.elim

instance decidableEstablishes [DecidableEq H] (host : Host) (s : Session H) (pk : PubKey)
    (at_ : Moment × Event H) : Decidable (s.Establishes host at_ pk) := by
  unfold Establishes
  split
  · infer_instance
  · infer_instance
  · infer_instance

instance decidableCloses [DecidableEq H] (host : Host) (s : Session H)
    (at_ : Moment × Event H) : Decidable (s.Closes host at_) := by
  refine @instDecidableAnd _ _ inferInstance ?_
  split
  · infer_instance
  · infer_instance
  · infer_instance
  · infer_instance
  · infer_instance

instance decidableRefused [DecidableEq H] (host : Host) (s : Session H)
    (at_ : Moment × Event H) : Decidable (s.Refused host at_) :=
  decidable_of_iff
    (∃ pk ∈ [s.expectedIdent, s.remoteRC.pubkey], s.Establishes host at_ pk ∧
      at_.1.refuses pk = true)
    ⟨fun ⟨pk, _, h⟩ => ⟨pk, h⟩, fun ⟨pk, h⟩ => ⟨pk, h.1.mem, h⟩⟩

theorem trace_sendMessageBuffer (buf : Message) (handler : Option (Handler H))
    (priority : UInt16) :
    Trace m s (s.sendMessageBuffer m buf handler priority) (fun _ => False)
      (s.state ≠ .closed ∧ handler = some .lim ∧ maxSendQueueSize ≤ s.plane.tx.txMsgs.size) := by
  obtain ⟨called, outcomes, dropped⟩ :=
    Transmitter.outcomes_sendMessageBuffer m.now buf handler priority
  let plane : DataPlane (Handler H) :=
    { s.plane with tx := (s.plane.tx.sendMessageBuffer m.now buf handler priority).1 }
  rw [sendMessageBuffer, withPlane_eq outcomes]
  have trace := trace_foldl_dropped (m := m) (s := { s with plane := plane })
    fun o ho => (dropped o ho).1
  refine trace.mono (fun _ => .rfl) fun ⟨opened, o, ho, lim⟩ => ⟨opened, ?_, (dropped o ho).2.2⟩
  rw [(dropped o ho).2.1, lim]

theorem trace_sendOurLIM (ourLIM : Option Message) (handler : Option (Handler H)) :
    Trace m s (s.sendOurLIM m ourLIM handler) (fun _ => False)
      (s.state ≠ .closed ∧ ourLIM.isSome = true ∧ handler = some .lim ∧
        maxSendQueueSize ≤ s.plane.tx.txMsgs.size) := by
  cases ourLIM with
  | none => exact .of_eq (fun _ => id) rfl rfl .rfl
  | some buf =>
    exact (trace_sendMessageBuffer buf handler 0).mono (fun _ => .rfl)
      fun ⟨opened, waits, full⟩ => ⟨opened, rfl, waits, full⟩

theorem trace_tick :
    Trace m s (s.tick m) (fun _ => False)
      (s.state ≠ .closed ∧ ∃ entry ∈ s.plane.tx.txMsgs.toList,
        entry.2.isTimedOut m.now = true ∧ entry.2.completed = some .lim) := by
  obtain ⟨called, outcomes, dropped⟩ := Transmitter.outcomes_tick m.now
  rw [tick, withPlane_eq outcomes]
  have trace := trace_foldl_dropped (m := m) (s := { s with plane := s.plane.tick m.now })
    fun o ho => (dropped o ho).1
  refine trace.mono (fun _ => .rfl) fun ⟨opened, o, ho, lim⟩ => ⟨opened, ?_⟩
  obtain ⟨-, entry, stored, late, waits⟩ := dropped o ho
  exact ⟨entry, stored, late, by rw [waits, lim]⟩

theorem trace_handle {p : Plaintext} {plane : DataPlane (Handler H)}
    (handled : s.plane.handle m.now p = some plane) :
    Trace m s (s.withPlane m plane)
      (fun pk => pk = s.remoteRC.pubkey ∧ s.plane.tx.Answers p .lim)
      (m.refuses s.remoteRC.pubkey = true ∧ s.plane.tx.Answers p .lim) := by
  obtain ⟨-, -, rfl⟩ := Option.map_eq_some_iff.mp handled
  obtain ⟨called, outcomes, success, exactly⟩ :=
    Transmitter.succeeds_handle s.plane.tx m.now p
  rw [withPlane_eq outcomes, ← exactly .lim]
  exact trace_foldl_success
    success

theorem trace_handleMessage (ourLIM : Option Message) (data : List UInt8) {rc : RouterContact}
    (introduces : host.linkIntro m.now data = some rc) :
    Trace m s (s.handleMessage host m ourLIM data)
      (fun pk => s.gotLIM = .inbound ∧ rc.pubkey = s.expectedIdent ∧ pk = s.expectedIdent)
      (s.gotLIM = .inbound ∧ rc.pubkey = s.expectedIdent ∧ m.refuses s.expectedIdent = true ∨
        s.state ≠ .closed ∧ s.gotLIM = .outbound ∧ rc.pubkey = s.remoteRC.pubkey ∧
          ourLIM.isSome = true ∧ maxSendQueueSize ≤ s.plane.tx.txMsgs.size) := by
  rw [handleMessage, introduces]
  cases s.gotLIM with
  | inbound =>
    dsimp only [gotInboundLIM]
    by_cases expected : rc.pubkey = s.expectedIdent
    · rw [if_neg (not_not_intro expected)]
      let s' : Session H := { s with gotLIM := .reneg, remoteRC := rc }
      have trace : Trace m s (s'.establish m true) _ _ := trace_establish
      refine trace.mono (fun pk => ?_) fun refused => Or.inl ⟨rfl, expected, expected ▸ refused⟩
      simp [s', expected]
    · rw [if_pos expected]
      exact .of_eq (by simp [expected]) rfl rfl .rfl
  | outbound =>
    dsimp only [gotOutboundLIM]
    by_cases expected : rc.pubkey = s.remoteRC.pubkey
    · rw [if_neg (not_not_intro expected)]
      let s' : Session H := { s with gotLIM := .reneg, remoteRC := rc }
      have trace : Trace m s (s'.sendOurLIM m ourLIM (some .lim)) _ _ :=
        trace_sendOurLIM ourLIM (some .lim)
      refine trace.mono (by simp) fun ⟨opened, sent, _, full⟩ => ?_
      exact Or.inr ⟨opened, rfl, expected, sent, full⟩
    · rw [if_pos expected]
      exact .of_eq (by simp) rfl rfl .rfl
  | reneg =>
    exact ⟨rfl, [.sessionRenegotiate rc], rfl, .renegotiate rc .nil, by simp, by simp, by simp,
      fun _ _ => .rfl⟩

theorem trace_verdict (request : ℕ) (ourLIM : Option Message) :
    Trace m s (s.verdict host m request ourLIM)
      (s.Establishes host (m, .verdict request ourLIM))
      (s.Closes host (m, .verdict request ourLIM) ∨
        s.Refused host (m, .verdict request ourLIM)) := by
  unfold verdict
  dsimp only
  rw [Reception.delivered_answer, List.drop_left]
  cases found : Reception.due host.shorthash s.plane.rx request with
  | none => exact .of_eq (by simp [Establishes, found]) rfl rfl .rfl
  | some e =>
    let rx := Reception.answer host.shorthash s.plane.rx m.now request
    let s' : Session H := { s with plane := { s.plane with rx := rx } }
    change Trace m s (s'.handleMessage host m ourLIM e.data) _ _
    cases introduces : host.linkIntro m.now e.data with
    | none =>
      rw [handleMessage, introduces]
      exact .of_eq (by simp [Establishes, found, introduces]) rfl rfl .rfl
    | some rc =>
      have trace : Trace m s (s'.handleMessage host m ourLIM e.data) _ _ :=
        trace_handleMessage ourLIM e.data introduces
      refine trace.mono (fun pk => ?_) ?_
      · simp [Establishes, found, introduces, s', and_comm]
      · rintro (⟨inbound, expected, refused⟩ | ⟨opened, outbound, expected, sent, full⟩)
        · exact Or.inr ⟨_, ⟨inbound, rfl, e, found, rc, introduces, expected⟩, refused⟩
        · exact Or.inl ⟨opened, outbound, sent, full, e, found, rc, introduces, expected⟩

theorem Trace.heard {now : ℕ} {data : Packet} (trace : Trace m s t establishes closes) :
    Trace m s (t.heard now data) establishes closes := by
  unfold Session.heard
  split_ifs
  · exact trace
  · exact trace

theorem handlePlaintext_of_parse {data : Packet} {p : Plaintext} (parsed : parse data = some p)
    (other : p ≠ .clos) :
    s.handlePlaintext m data =
      (s.plane.handle m.now p).map fun plane => (s.withPlane m plane).heard m.now data := by
  rw [handlePlaintext, parsed]
  cases p with
  | clos => exact absurd rfl other
  | _ => rfl

theorem trace_plaintext {index : ℕ} (hstep : s.plaintext m index = some t) :
    Trace m s t (s.Establishes host (m, .plaintext index))
      (s.Closes host (m, .plaintext index) ∨ s.Refused host (m, .plaintext index)) := by
  unfold plaintext at hstep
  cases found : s.plaintextRecv[index]? with
  | none =>
    rw [found] at hstep
    cases hstep
    exact .of_eq (by simp [Establishes, found]) rfl rfl .rfl
  | some data =>
    rw [found] at hstep
    let s' : Session H := { s with plaintextRecv := s.plaintextRecv.eraseIdx index }
    change s'.handlePlaintext m data = some t at hstep
    cases parsed : parse data with
    | none =>
      rw [handlePlaintext, parsed] at hstep
      cases hstep
      refine Trace.heard (.of_eq (fun pk => ?_) rfl rfl .rfl)
      simp [Establishes, found, parsed]
    | some p =>
      by_cases clos : p = .clos
      · subst clos
        rw [handlePlaintext, parsed] at hstep
        cases hstep
        have trace : Trace m s s'.close _ _ := trace_close
        refine (trace.mono (fun pk => ?_) fun opened => Or.inl ⟨opened, data, found, parsed⟩).heard
        simp [Establishes, found, parsed, Transmitter.Answers]
      · rw [handlePlaintext_of_parse parsed clos] at hstep
        obtain ⟨plane, handled, rfl⟩ := Option.map_eq_some_iff.mp hstep
        have trace : Trace m s (s'.withPlane m plane) _ _ := trace_handle handled
        refine (trace.mono (fun pk => ?_) ?_).heard
        · simp [Establishes, found, parsed, s']
        · rintro ⟨refused, answers⟩
          exact Or.inr ⟨_, ⟨rfl, data, found, p, parsed, answers⟩, refused⟩

section

variable {pkt : List UInt8} (opened : s.state ≠ .closed)

include opened

theorem trace_handleGotIntro {size : ℕ} :
    Trace m s (s.handleGotIntro host m size pkt) (fun _ => False) closes := by
  unfold handleGotIntro
  dsimp only
  split_ifs
  · exact .of_eq (fun _ => id) rfl rfl .rfl
  · cases host.transportDHServer (.copy 32 (pkt.drop 32)) (.copy 32 (pkt.drop 64)) with
    | none => exact .of_eq (fun _ => id) rfl rfl .rfl
    | some key => exact .of_eq (fun _ => id) rfl rfl (iff_of_false nofun opened)
  · exact .of_eq (fun _ => id) rfl rfl .rfl

theorem trace_handleCreateSessionRequest :
    Trace m s (s.handleCreateSessionRequest host m pkt ourLIM) (fun _ => False) False := by
  unfold handleCreateSessionRequest
  cases s.decryptMessageInPlace host pkt with
  | none => exact .of_eq (fun _ => id) rfl rfl .rfl
  | some payload =>
    dsimp only
    split_ifs
    · exact .of_eq (fun _ => id) rfl rfl .rfl
    · exact .of_eq (fun _ => id) rfl rfl .rfl
    · let s' : Session H := { s with lastRX := m.now, state := .linkIntro }
      obtain ⟨addr, called, calls, ordered, maps, unmaps, settles, keeps⟩ :=
        (trace_sendOurLIM ourLIM none)
      exact ⟨addr, called, calls, ordered, maps, fun hun => (nomatch (unmaps hun).1.2.2.1), settles,
        fun none hun => (keeps none hun).trans (iff_of_false nofun opened)⟩

theorem trace_handleGotIntroAck :
    Trace m s (s.handleGotIntroAck host m pkt) (fun _ => False) closes := by
  unfold handleGotIntroAck
  split_ifs
  · exact .of_eq (fun _ => id) rfl rfl .rfl
  · cases s.decryptMessageInPlace host pkt with
    | none => exact .of_eq (fun _ => id) rfl rfl .rfl
    | some payload => exact .of_eq (fun _ => id) rfl rfl (iff_of_false nofun opened)

end

/-- Packets that arrive change nothing at the link layer before they are decrypted. -/
theorem trace_recvLL : Trace m s (s.recvLL host m data ourLIM).1 (fun _ => False) False := by
  unfold recvLL
  split
  · rename_i state
    split_ifs
    · cases s.decryptMessageInPlace host data with
      | none => exact .of_eq (fun _ => id) rfl rfl .rfl
      | some payload => exact trace_handleGotIntro (by rw [state]; nofun)
    · exact .of_eq (fun _ => id) rfl rfl .rfl
  · rename_i state
    split_ifs
    · exact trace_handleCreateSessionRequest (by rw [state]; nofun)
    · exact trace_handleGotIntroAck (by rw [state]; nofun)
  · exact .of_eq (fun _ => id) rfl rfl .rfl
  · exact .of_eq (fun _ => id) rfl rfl .rfl
  · exact .of_eq (fun _ => id) rfl rfl .rfl

theorem trace_decrypt {job : ℕ} : Trace m s (s.decrypt host job) (fun _ => False) closes := by
  unfold decrypt
  cases s.decrypting[job]? with
  | none => exact .of_eq (fun _ => id) rfl rfl .rfl
  | some pkt =>
    dsimp only
    cases s.decryptMessageInPlace host pkt with
    | none => exact .of_eq (fun _ => id) rfl rfl .rfl
    | some payload =>
      dsimp only
      split_ifs
      · exact .of_eq (fun _ => id) rfl rfl .rfl
      · exact .of_eq (fun _ => id) rfl rfl .rfl

/-- What a step asks of the link layer. -/
theorem step_trace (hstep : s.step host at_ = some t) :
    Trace at_.1 s t (s.Establishes host at_) (s.Closes host at_ ∨ s.Refused host at_) := by
  obtain ⟨m, event⟩ := at_
  cases event with
  | plaintext index => exact trace_plaintext hstep
  | verdict request ourLIM =>
    cases hstep
    exact trace_verdict request ourLIM
  | close =>
    cases hstep
    exact trace_close.mono (fun _ => .rfl) fun opened => Or.inl ⟨opened, trivial⟩
  | tick =>
    cases hstep
    exact trace_tick.mono (fun _ => .rfl) Or.inl
  | recvLL data ourLIM =>
    cases hstep
    exact trace_recvLL.mono (fun _ => .rfl) False.elim
  | sendMessageBuffer buf handler priority =>
    cases hstep
    refine (trace_sendMessageBuffer buf (handler.map .user) priority).mono (fun _ => .rfl) ?_
    rintro ⟨-, waits, -⟩
    cases handler with
    | none => cases waits
    | some handler => cases waits
  | renegotiateSession ourLIM =>
    cases hstep
    exact (trace_sendOurLIM ourLIM none).mono (fun _ => .rfl)
      fun ⟨_, _, waits, _⟩ => nomatch waits
  | decrypt job =>
    cases hstep
    exact trace_decrypt
  | pump | sendLL | sendMACK | triggerHashGen | recvHashed =>
    cases hstep
    exact .of_eq (fun _ => id) rfl rfl .rfl

theorem effect_recvLL : Effect m s (s.recvLL host m data ourLIM).1 (fun _ => False) False :=
  trace_recvLL.effect

theorem orderly_recvLL : Orderly m s (s.recvLL host m data ourLIM).1 :=
  trace_recvLL.orderly

theorem step_effect (hstep : s.step host at_ = some t) :
    Effect at_.1 s t (s.Establishes host at_) (s.Closes host at_ ∨ s.Refused host at_) :=
  (step_trace hstep).effect

/-- A session makes its calls in order. -/
theorem step_orderly (hstep : s.step host at_ = some t) : Orderly at_.1 s t :=
  (step_trace hstep).orderly

end Llarp.Iwp.Session
