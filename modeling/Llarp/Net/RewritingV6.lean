import Llarp.Net.ExtensionHeaders

/-!
# New addresses in IPv6 packets

The fragments of a datagram repeat the headers before the fragment header, and have the headers
behind it only once, as part of what is cut into pieces. A packet is rewritten where the loop along
its headers takes the checksum to be. That is not where it is if the reserved bit is set that the
loop reads as part of the offset, or if other headers follow the fragment header and the checksum
is not in the first fragment.
-/

namespace Llarp

open Foundation Extension IPPacket List

namespace IPv6Packet

/-! ### Datagrams -/

/-- The packets, each with the place of its part in the segment. -/
def carried : (place : ℕ) → List IPv6Packet → List (IPv6Packet × ℕ)
  | _, [] => []
  | place, p :: pkts => (p, place) :: carried (place + p.body.length) pkts

def segment (pkts : List IPv6Packet) : List UInt8 := pkts.flatMap body

/-- A packet, whole or as the first of several fragments, and the later fragments. The first one
has all headers of the datagram; the headers behind its fragment header, `inner`, belong to what is
cut into pieces. -/
structure IsDatagram (src dst : IPv6Addr) (proto : UInt8) (inner : List Extension)
    (first : IPv6Packet) (later : List IPv6Packet) : Prop where
  addresses : ∀ p ∈ first :: later, p.src = src ∧ p.dst = dst
  large : ∀ p ∈ first :: later, 40 < p.encode.size
  whole : ∀ e ∈ first.chain, e.offset = 0
  final_eq : first.final = proto
  fragmented : later ≠ [] → ∃ before e, first.chain = before ++ e :: inner ∧ e.kind = 44
  fragments : ∀ x ∈ carried first.body.length later, ∃ before e, x.1.chain = before ++ [e] ∧
    (∀ e' ∈ before, e'.offset = 0) ∧ e.kind = 44 ∧
      e.offset = (encodeChain proto inner).length + x.2 ∧ x.1.final = firstKind proto inner

variable {e : Extension} (proto : UInt8) (p : IPv6Packet)

/-- What follows the addresses in the pseudo header of IPv6. -/
def pseudoTailV6 (length : ℕ) : List UInt8 := bigEndian 4 length ++ [0, 0, 0, proto]

/-- The checksum of a segment verifies. There must be one in IPv6. -/
def VerifiesV6 (src dst : IPv6Addr) (proto : UInt8) (segment : List UInt8) : Prop :=
  SegmentVerifies (pseudoHeader src dst (pseudoTailV6 proto)) false proto segment

/-! ### What is claimed of rewritten packets -/

/-- What is behind the chain in a rewritten packet. -/
def bodyOf (new : IPPacket) : List UInt8 := new.buf.drop (40 + p.chainBytes.length)

/-- Nothing but the addresses, the flow label and a field behind the chain is changed. -/
structure Untouched (p : IPv6Packet) (field : Option ℕ) (new : IPPacket) : Prop where
  size_eq : new.size = p.encode.size
  class_eq : (new.buf.getD 1 0).toNat / 16 = (p.encode.buf.getD 1 0).toNat / 16
  bytes_eq : ∀ i, ¬(1 ≤ i ∧ i < 4) → ¬(8 ≤ i ∧ i < 40) →
    (∀ f, field = some f → ¬(40 + p.chainBytes.length + f ≤ i ∧ i < 40 + p.chainBytes.length + f + 2)) →
      new.buf[i]? = p.encode.buf[i]?

/-- The place of the checksum in a packet that carries a part of a segment. -/
def field (x : IPv6Packet × ℕ) : Option ℕ :=
  fieldSite (checksumOffset proto) x.2 x.1.body.length

/-- All packets are rewritten, the checksum verifies if it did before, and nothing else but the
addresses and flow labels is changed. -/
def Rewrites (src dst newSrc newDst : IPv6Addr) (proto : UInt8)
    (label : IPv6Packet → Option (AlignedBuffer 4)) (pkts : List IPv6Packet) : Prop :=
  ∃ rewritten, pkts.mapM (fun p => p.encode.updateIPv6Address newSrc newDst (label p)) =
      .ok rewritten ∧
    (VerifiesV6 src dst proto (segment pkts) →
      VerifiesV6 newSrc newDst proto (pkts.zipWith bodyOf rewritten).flatten) ∧
    List.Forall₂ (fun x new => Untouched x.1 (field proto x) new) (carried 0 pkts) rewritten

/-! ### When it is so -/

/-- The reserved bit that the loop reads as part of the offset is set. -/
def Reserved : Extension → Prop
  | .options _ _ _ _ _ => False
  | .fragment _ _ low _ => low.toNat / 4 % 2 = 1

/-- Another header follows one with the reserved bit set, or a fragment header of a later fragment:
the loop does not come to the transport protocol. -/
def Overlooked : Prop :=
  p.final ≠ proto ∨ ∃ e ∈ p.chain.dropLast, Reserved e

/-- The reserved bit is set in the last header: the checksum of TCP or DCCP is looked for four bytes
before it. -/
def Shifted : Prop :=
  ¬IsUDP proto ∧ ∃ e ∈ p.chain.getLast?, Reserved e

/-- The place of the word four bytes before the checksum. -/
def fieldBefore (x : IPv6Packet × ℕ) : Option ℕ :=
  fieldSite (checksumOffset proto - 4) x.2 x.1.body.length

/-- The old and the new addresses have the same sum, so that no checksum has to change. -/
def SameSum (src dst newSrc newDst : IPv6Addr) : Prop :=
  wordSum newSrc.bytes + wordSum newDst.bytes ≡ wordSum src.bytes + wordSum dst.bytes [MOD 65535]

/-- The checksum can be found in the packet, or it does no harm that it is not: it is not in this
packet, or need not change, or does not verify anyway. If the word before it is taken for it, that
word must not change. -/
def FindsChecksum (src dst newSrc newDst : IPv6Addr) (proto : UInt8) (verifies : Prop)
    (x : IPv6Packet × ℕ) : Prop :=
  (Overlooked proto x.1 ∨ Shifted proto x.1 ∧ fieldBefore proto x = none →
    field proto x = none ∨ SameSum src dst newSrc newDst ∨ ¬verifies) ∧
  ∀ w, ¬Overlooked proto x.1 → Shifted proto x.1 → fieldBefore proto x = some w →
    SameSum src dst newSrc newDst ∧ fieldAt x.1.body w ≠ 0xFFFF

/-! ### Offsets -/

theorem eight_dvd_encodeChain (final : UInt8) (chain : List Extension) :
    8 ∣ (encodeChain final chain).length := by
  induction chain with
  | nil => exact dvd_zero 8
  | cons e chain ih =>
    have whole : 8 ∣ e.size := by
      cases e with
      | options kind len data isKind length => exact Dvd.intro_left _ rfl
      | fragment reserved high low identification => exact dvd_rfl
    rw [encodeChain, length_append, length_encode]
    exact dvd_add whole ih

theorem eight_dvd_offset (e : Extension) : 8 ∣ e.offset := by
  cases e with
  | options kind len data isKind length => exact dvd_zero 8
  | fragment reserved high low identification =>
    rw [offset]
    omega

theorem toNat_and_mask (low : UInt8) : (low &&& 0xFC).toNat = low.toNat / 4 * 4 := by
  have masked : ∀ n < 256, n &&& 252 = n / 4 * 4 := by decide +kernel
  exact masked _ low.toNat_lt

/-- The offset that the loop reads is four bytes too large if the reserved bit is set. -/
theorem fragoff_of_reserved (reserved : Reserved e) : e.fragoff = e.offset + 4 := by
  cases e with
  | options kind len data isKind length => exact reserved.elim
  | fragment _ high low identification =>
    rw [Reserved] at reserved
    rw [fragoff, offset, toNat_and_mask]
    omega

theorem fragoff_of_not_reserved (clear : ¬Reserved e) : e.fragoff = e.offset := by
  cases e with
  | options kind len data isKind length => rfl
  | fragment _ high low identification =>
    rw [Reserved] at clear
    rw [fragoff, offset, toNat_and_mask]
    omega

/-- With the reserved bit set, the word before the checksum of TCP or DCCP is taken for it. -/
theorem checksumSite_add_four {proto : UInt8} (other : ¬IsUDP proto) (place psz : ℕ) :
    checksumSite proto (place + 4) psz = fieldSite (checksumOffset proto - 4) place psz := by
  have beyond := six_le_checksumOffset proto
  rw [checksumSite, fieldSite]
  split_ifs
  · omega
  · rfl
  · congr 1
    omega
  · omega

/-- The checksum of UDP is looked for at its place in every fragment that may have it. -/
theorem checksumSite_add_four_of_udp {proto : UInt8} (udp : IsUDP proto) {place : ℕ}
    (aligned : 8 ∣ place) (psz : ℕ) :
    checksumSite proto (place + 4) psz = checksumSite proto place psz := by
  have same : (place + 4 > 6 ∨ psz < 6 + 2) ↔ (place > 6 ∨ psz < 6 + 2) := by omega
  rw [checksumSite, checksumSite, if_pos udp, if_pos udp]
  simp only [same]

theorem stop_append_of_reserved {before : List Extension} (behind : List Extension)
    (member : e ∈ before) (reserved : Reserved e) (more : behind ≠ []) :
    ∃ fragoff e' rest, stop (before ++ behind) = some (fragoff, e' :: rest) := by
  induction before with
  | nil => cases member
  | cons first before ih =>
    rw [cons_append, stop]
    split_ifs
    · obtain ⟨e', rest, shape⟩ := exists_cons_of_ne_nil
        (append_ne_nil_of_right_ne_nil before more)
      exact ⟨_, e', rest, by rw [shape]⟩
    · rcases mem_cons.mp member with rfl | member
      · have large := fragoff_of_reserved reserved
        omega
      · exact ih member

theorem stop_append_of_clear {before : List Extension} (behind : List Extension)
    (whole : ∀ e ∈ before, e.offset = 0) (clear : ∀ e ∈ before, ¬Reserved e) :
    stop (before ++ behind) = stop behind := by
  induction before with
  | nil => rfl
  | cons first before ih =>
    rw [forall_mem_cons] at whole clear
    have zero : first.fragoff = 0 := (fragoff_of_not_reserved clear.1).trans whole.1
    rw [cons_append, stop, if_neg (not_not.mpr zero), ih whole.2 clear.2]

/-! ### Where the packets of a datagram are rewritten -/

open Classical in
/-- The place where a packet of a datagram is rewritten. -/
noncomputable def foundSite (x : IPv6Packet × ℕ) : Option ℕ :=
  if Overlooked proto x.1 then none
  else if Shifted proto x.1 then fieldBefore proto x
  else field proto x

/-- What is used of a packet of a datagram and of the place of its part. -/
structure IsPart (src dst : IPv6Addr) (proto : UInt8) (x : IPv6Packet × ℕ) : Prop where
  src_eq : x.1.src = src
  dst_eq : x.1.dst = dst
  large : 40 < x.1.encode.size
  aligned : 8 ∣ x.2
  ends : stop x.1.chain = none → HasChecksum x.1.final
  site_eq : x.1.site = foundSite proto x

section Parts

variable {src dst : IPv6Addr} {proto : UInt8} {inner : List Extension} {first : IPv6Packet}
  {later : List IPv6Packet} {p : IPv6Packet} {fragoff : ℕ} {e : Extension}

theorem site_of_none (none : stop p.chain = none) (known : HasChecksum p.final) :
    p.site = checksumSite p.final 0 p.body.length := by
  simp only [site, none, if_pos known]

theorem site_of_last (last : stop p.chain = some (fragoff, [])) (known : HasChecksum p.final) :
    p.site = checksumSite p.final fragoff p.body.length := by
  simp only [site, last, if_pos known]

theorem site_of_behind {behind : List Extension} (stops : stop p.chain = some (fragoff, e :: behind)) :
    p.site = none := by
  simp only [site, stops, ite_self]

theorem site_of_stop_last (last : stop p.chain = stop [e]) (known : HasChecksum p.final) :
    p.site = checksumSite p.final e.fragoff p.body.length := by
  rw [stop] at last
  split_ifs at last with moves
  · exact site_of_last last known
  · rw [not_not.mp moves]
    exact site_of_none last known

/-- In a later fragment the transport protocol is known only if no header is among what is cut. -/
theorem inner_eq_nil (known : HasChecksum (firstKind proto inner)) : inner = [] := by
  cases inner with
  | nil => rfl
  | cons e inner => exact absurd known (not_hasChecksum_kind e)

/-- A packet without headers. -/
theorem site_of_chain_nil (known : HasChecksum proto) (final_eq : p.final = proto)
    (bare : p.chain = []) :
    p.site = foundSite proto (p, 0) := by
  have found : ¬Overlooked proto p := by
    rintro (other | ⟨e, member, -⟩)
    · exact other final_eq
    · rw [bare] at member
      cases member
  have straight : ¬Shifted proto p := by
    rintro ⟨-, e, member, -⟩
    rw [bare] at member
    cases member
  have stops : stop p.chain = none := by rw [bare, stop]
  rw [foundSite, if_neg found, if_neg straight, site_of_none stops (final_eq ▸ known), final_eq]
  exact checksumSite_eq_fieldSite proto (dvd_zero 8) _

/-- A packet whose last header has the offset of its part, if the transport protocol is next, and an
offset that is not zero otherwise. -/
theorem site_of_chain_concat (known : HasChecksum proto) {x : IPv6Packet × ℕ}
    {before : List Extension} (chain : x.1.chain = before ++ [e])
    (whole : ∀ e' ∈ before, e'.offset = 0) (aligned : 8 ∣ x.2)
    (here : x.1.final = proto → e.offset = x.2)
    (elsewhere : x.1.final ≠ proto → e.offset ≠ 0 ∧ ¬HasChecksum x.1.final) :
    (stop x.1.chain = none → HasChecksum x.1.final) ∧ x.1.site = foundSite proto x := by
  have front : x.1.chain.dropLast = before := by rw [chain, dropLast_concat]
  have back : x.1.chain.getLast? = some e := by rw [chain, getLast?_concat]
  by_cases clear : ∀ e' ∈ before, ¬Reserved e'
  · have last : stop x.1.chain = stop [e] := by rw [chain, stop_append_of_clear _ whole clear]
    by_cases final_eq : x.1.final = proto
    · have found : ¬Overlooked proto x.1 := by
        rintro (other | ⟨e', member, reserved⟩)
        · exact other final_eq
        · exact clear e' (front ▸ member) reserved
      have transport : HasChecksum x.1.final := final_eq ▸ known
      have site := site_of_stop_last last transport
      rw [final_eq] at site
      refine ⟨fun _ => transport, ?_⟩
      rw [foundSite, site]
      split_ifs with shifted
      · obtain ⟨other, e', member, reserved⟩ := shifted
        obtain rfl : e = e' := Option.some.inj (back.symm.trans member)
        rw [fragoff_of_reserved reserved, here final_eq, checksumSite_add_four other]
        rfl
      · rw [field, ← checksumSite_eq_fieldSite proto aligned]
        by_cases reserved : Reserved e
        · have udp : IsUDP proto := by
            by_contra other
            exact shifted ⟨other, e, back, reserved⟩
          rw [fragoff_of_reserved reserved, here final_eq, checksumSite_add_four_of_udp udp aligned]
        · rw [fragoff_of_not_reserved reserved, here final_eq]
    · -- the fragment header has an offset, and what is next is another header
      obtain ⟨offset, unknown⟩ := elsewhere final_eq
      have moves : e.fragoff ≠ 0 := by
        by_cases reserved : Reserved e
        · rw [fragoff_of_reserved reserved]
          omega
        · rwa [fragoff_of_not_reserved reserved]
      rw [stop, if_pos moves] at last
      have lost : Overlooked proto x.1 := .inl final_eq
      rw [foundSite, if_pos lost]
      exact ⟨fun none => (by cases last.symm.trans none), if_neg unknown⟩
  · push Not at clear
    obtain ⟨e', member, reserved⟩ := clear
    obtain ⟨fragoff, next, rest, stops⟩ := stop_append_of_reserved [e] member reserved
      (cons_ne_nil e [])
    rw [← chain] at stops
    have lost : Overlooked proto x.1 := .inr ⟨e', front ▸ member, reserved⟩
    rw [foundSite, if_pos lost]
    exact ⟨fun none => (by cases stops.symm.trans none), site_of_behind stops⟩

theorem map_fst_carried (place : ℕ) (pkts : List IPv6Packet) :
    (carried place pkts).map Prod.fst = pkts := by
  induction pkts generalizing place with
  | nil => rfl
  | cons p pkts ih => rw [carried, map_cons, ih]

theorem mem_of_mem_carried {place : ℕ} {pkts : List IPv6Packet} {x : IPv6Packet × ℕ}
    (member : x ∈ carried place pkts) : x.1 ∈ pkts := by
  have listed := mem_map_of_mem (f := Prod.fst) member
  rwa [map_fst_carried] at listed

section

variable (datagram : IsDatagram src dst proto inner first later) (known : HasChecksum proto)

include datagram known

theorem IsDatagram.isPart_first : IsPart src dst proto (first, 0) := by
  obtain ⟨src_eq, dst_eq⟩ := datagram.addresses first mem_cons_self
  have large := datagram.large first mem_cons_self
  have final_eq := datagram.final_eq
  have whole := datagram.whole
  rcases eq_nil_or_concat first.chain with bare | ⟨before, e, chain⟩
  · exact ⟨src_eq, dst_eq, large, dvd_zero 8, fun _ => final_eq ▸ known,
      site_of_chain_nil known final_eq bare⟩
  · rw [concat_eq_append] at chain
    rw [chain, forall_mem_append] at whole
    have last : e.offset = 0 := whole.2 e mem_cons_self
    obtain ⟨ends, site⟩ := site_of_chain_concat (x := (first, 0)) known chain whole.1
      (dvd_zero 8) (fun _ => last) (absurd final_eq)
    exact ⟨src_eq, dst_eq, large, dvd_zero 8, ends, site⟩

theorem IsDatagram.isPart_later {x : IPv6Packet × ℕ}
    (member : x ∈ carried first.body.length later) : IsPart src dst proto x := by
  have listed : x.1 ∈ first :: later := mem_cons_of_mem _ (mem_of_mem_carried member)
  obtain ⟨src_eq, dst_eq⟩ := datagram.addresses x.1 listed
  have large := datagram.large x.1 listed
  obtain ⟨before, e, chain, whole, -, place, final_eq⟩ := datagram.fragments x member
  have aligned : 8 ∣ x.2 := by
    have cut := eight_dvd_offset e
    rw [place] at cut
    exact (Nat.dvd_add_right (eight_dvd_encodeChain proto inner)).mp cut
  have here (transport : x.1.final = proto) : e.offset = x.2 := by
    obtain rfl : inner = [] := inner_eq_nil (final_eq ▸ transport ▸ known)
    rw [place, encodeChain, length_nil, Nat.zero_add]
  have elsewhere (other : x.1.final ≠ proto) : e.offset ≠ 0 ∧ ¬HasChecksum x.1.final := by
    cases inner with
    | nil => exact absurd final_eq other
    | cons next inner =>
      have short := length_le_encodeChain proto (next :: inner)
      rw [length_cons] at short
      rw [final_eq]
      exact ⟨by omega, not_hasChecksum_kind next⟩
  obtain ⟨ends, site⟩ := site_of_chain_concat known chain whole aligned here elsewhere
  exact ⟨src_eq, dst_eq, large, aligned, ends, site⟩

theorem IsDatagram.isPart {x : IPv6Packet × ℕ} (member : x ∈ carried 0 (first :: later)) :
    IsPart src dst proto x := by
  rw [carried, Nat.zero_add, mem_cons] at member
  rcases member with rfl | member
  · exact datagram.isPart_first known
  · exact datagram.isPart_later known member

end

/-- The word before the checksum. -/
theorem eq_add_four_of_fieldBefore {x : IPv6Packet × ℕ} {w f : ℕ}
    (before : fieldBefore proto x = some w) (here : field proto x = some f) : f = w + 4 := by
  have beyond := six_le_checksumOffset proto
  rw [fieldBefore, fieldSite] at before
  rw [field, fieldSite] at here
  split_ifs at before here
  have first := Option.some.inj before
  have second := Option.some.inj here
  omega

/-- The place that is rewritten is that of the checksum, or there is none, or another word of TCP or
DCCP is rewritten. -/
theorem IsPart.site_cases {x : IPv6Packet × ℕ} (part : IsPart src dst proto x) :
    x.1.site = none ∨ x.1.final = proto ∧ (x.1.site = field proto x ∨
      ¬IsUDP proto ∧ ∃ w, x.1.site = some w ∧ ∀ f, field proto x = some f → f = w + 4) := by
  have final_eq (found : ¬Overlooked proto x.1) : x.1.final = proto :=
    not_not.mp fun other => found (.inl other)
  rw [part.site_eq, foundSite]
  split_ifs with lost shifted
  · exact .inl rfl
  · cases before : fieldBefore proto x with
    | none => exact .inl rfl
    | some w =>
      exact .inr ⟨final_eq lost, .inr ⟨shifted.1, w, rfl, fun f => eq_add_four_of_fieldBefore before⟩⟩
  · exact .inr ⟨final_eq lost, .inl rfl⟩

/-- The condition in terms of the place that is rewritten. -/
theorem IsPart.findsChecksum_iff {x : IPv6Packet × ℕ} (part : IsPart src dst proto x)
    {newSrc newDst : IPv6Addr} {verifies : Prop} :
    FindsChecksum src dst newSrc newDst proto verifies x ↔ x.1.site = field proto x ∨
      (SameSum src dst newSrc newDst ∧ ∀ w, x.1.site = some w → fieldAt x.1.body w ≠ 0xFFFF) ∨
      x.1.site = none ∧ ¬verifies := by
  have moved (w : ℕ) (before : fieldBefore proto x = some w) : field proto x ≠ some w := by
    intro here
    have apart := eq_add_four_of_fieldBefore before here
    omega
  rw [FindsChecksum, part.site_eq, foundSite]
  by_cases lost : Overlooked proto x.1
  · simp [lost, eq_comm]
  by_cases shifted : Shifted proto x.1
  · cases before : fieldBefore proto x with
    | none => simp [lost, shifted, eq_comm]
    | some w =>
      have apart := Ne.symm (moved w before)
      simp [lost, shifted, apart]
  · simp [lost, shifted]

end Parts

/-! ### What is changed in a packet -/

/-- Only the lower half of a byte is taken from the label. -/
theorem mask_nibble (old new : UInt8) :
    ((0x0F &&& new) ||| (old &&& ~~~0x0F)).toNat / 16 = old.toNat / 16 := by
  have high : old.toNat >>> 4 < 2 ^ 4 := by
    have lt := old.toNat_lt
    omega
  rw [UInt8.toNat_or, UInt8.toNat_and, UInt8.toNat_and]
  show _ / 2 ^ 4 = _ / 2 ^ 4
  rw [← Nat.shiftRight_eq_div_pow, ← Nat.shiftRight_eq_div_pow, Nat.shiftRight_or_distrib,
    Nat.shiftRight_and_distrib, Nat.shiftRight_and_distrib]
  show (0 &&& _) ||| (_ &&& 2 ^ 4 - 1) = _
  rw [Nat.zero_and, Nat.zero_or, Nat.and_two_pow_sub_one_eq_mod, Nat.mod_eq_of_lt high]

theorem exists_relabel (front : AlignedBuffer 6) (label : AlignedBuffer 4) :
    ∃ a b rest, front.bytes = a :: b :: rest ∧ ∃ b' c' d',
      (relabel front (some label)).bytes = a :: b' :: c' :: d' :: rest.drop 2 ∧
        b'.toNat / 16 = b.toNat / 16 := by
  obtain ⟨l₀, l₁, l₂, l₃, isLabel⟩ := length_eq_four.mp label.length_eq
  have six := front.length_eq
  match isFront : front.bytes with
  | [] | [_] | [_, _] | [_, _, _] =>
    rw [isFront] at six
    cases six
  | a :: b :: c :: d :: rest =>
    refine ⟨a, b, c :: d :: rest, rfl, (0x0F &&& l₁) ||| (b &&& ~~~0x0F), (0xFF &&& l₂) ||| (c &&& ~~~0xFF),
      (0xFF &&& l₃) ||| (d &&& ~~~0xFF), ?_, mask_nibble b l₁⟩
    simp [relabel, mixLabel, isFront, isLabel]

section Change

variable (front : AlignedBuffer 6) (label : Option (AlignedBuffer 4))

theorem getElem?_relabel {i : ℕ} (other : ¬(1 ≤ i ∧ i < 4)) :
    (relabel front label).bytes[i]? = front.bytes[i]? := by
  cases label with
  | none => rfl
  | some label =>
    obtain ⟨a, b, rest, old, b', c', d', new, -⟩ := exists_relabel front label
    rw [old, new]
    rcases i with _ | _ | _ | _ | -
    · rfl
    · omega
    · omega
    · omega
    · simp only [getElem?_cons_succ, getElem?_drop, Nat.add_comm 2]

theorem class_relabel : ((relabel front label).bytes.getD 1 0).toNat / 16 =
    (front.bytes.getD 1 0).toNat / 16 := by
  cases label with
  | none => rfl
  | some label =>
    obtain ⟨a, b, rest, old, b', c', d', new, same⟩ := exists_relabel front label
    rw [old, new]
    exact same

variable (p : IPv6Packet)

theorem getElem?_encode_start {i : ℕ} (inside : i < 8) : p.encode.buf[i]? = p.start[i]? := by
  rw [encode, getElem?_append_left (by rwa [length_start])]

theorem getElem?_encode_behind (i : ℕ) : p.encode.buf[40 + i]? = (p.chainBytes ++ p.body)[i]? := by
  have fixed : (p.start ++ (p.src.bytes ++ p.dst.bytes)).length = 40 := by
    simp only [length_append, length_start, p.src.length_eq, p.dst.length_eq]
  have split : p.encode.buf = p.start ++ (p.src.bytes ++ p.dst.bytes) ++ (p.chainBytes ++ p.body) := by
    simp only [encode, append_assoc]
  rw [split, getElem?_append_right (by omega), fixed, Nat.add_sub_cancel_left]

theorem getElem?_encode_body (i : ℕ) :
    p.encode.buf[40 + p.chainBytes.length + i]? = p.body[i]? := by
  rw [Nat.add_assoc, getElem?_encode_behind, getElem?_append_right (Nat.le_add_right _ _),
    Nat.add_sub_cancel_left]

theorem site_fits {w : ℕ} (here : p.site = some w) : w + 2 ≤ p.body.length := by
  rw [site] at here
  split_ifs at here
  split at here
  · exact checksumSite_fits here
  · exact checksumSite_fits here
  · cases here

variable (src dst : IPv6Addr)

theorem getElem?_start_readdressed {i : ℕ} (other : ¬(1 ≤ i ∧ i < 4)) :
    (p.readdressed src dst label).start[i]? = p.start[i]? := by
  have length := (relabel p.front label).length_eq
  show ((relabel p.front label).bytes ++ [firstKind p.final p.chain, p.hoplimit])[i]? = _
  rw [start]
  by_cases inFront : i < 6
  · rw [getElem?_append_left (by omega), getElem?_relabel p.front label other,
      getElem?_append_left (by rwa [p.front.length_eq])]
  · rw [getElem?_append_right (by omega), length,
      getElem?_append_right (by rw [p.front.length_eq]; omega), p.front.length_eq]

theorem class_readdressed : ((p.readdressed src dst label).start.getD 1 0).toNat / 16 =
    (p.start.getD 1 0).toNat / 16 := by
  have inside (front : AlignedBuffer 6) : 1 < front.bytes.length := by
    rw [front.length_eq]
    decide
  show (((relabel p.front label).bytes ++ _).getD 1 0).toNat / 16 = _
  rw [start, getD_append _ _ _ _ (inside _), getD_append _ _ _ _ (inside _)]
  exact class_relabel p.front label

theorem length_body_readdressed : (p.readdressed src dst label).body.length = p.body.length :=
  length_rewriteAt fun _ => p.site_fits

theorem bodyOf_readdressed :
    p.bodyOf (p.readdressed src dst label).encode = (p.readdressed src dst label).body := by
  ext1 i
  rw [bodyOf, getElem?_drop]
  exact (p.readdressed src dst label).getElem?_encode_body i

/-- The bytes that are changed behind the chain are those of the field. -/
theorem untouched_readdressed_iff {field : Option ℕ} :
    Untouched p field (p.readdressed src dst label).encode ↔
      ∀ i, (∀ f, field = some f → ¬(f ≤ i ∧ i < f + 2)) →
        (p.readdressed src dst label).body[i]? = p.body[i]? := by
  have behind (i : ℕ) := (p.readdressed src dst label).getElem?_encode_body i
  constructor
  · rintro ⟨-, -, bytes_eq⟩ i outside
    have same := bytes_eq (40 + p.chainBytes.length + i) (by omega) (by omega) fun f here => by
      have apart := outside f here
      omega
    rw [getElem?_encode_body] at same
    exact (behind i).symm.trans same
  · intro same
    refine ⟨?_, ?_, fun i notLabel notAddress outside => ?_⟩
    · rw [size_encode, size_encode, length_body_readdressed]
      rfl
    · have second : 1 < 8 := by decide
      rw [getD_eq_getElem?_getD, getD_eq_getElem?_getD, getElem?_encode_start _ second,
        getElem?_encode_start _ second]
      exact p.class_readdressed label src dst
    · by_cases inStart : i < 8
      · rw [getElem?_encode_start _ inStart, getElem?_encode_start _ inStart]
        exact p.getElem?_start_readdressed label src dst notLabel
      · obtain ⟨j, rfl⟩ : ∃ j, i = 40 + j := ⟨i - 40, by omega⟩
        by_cases inChain : j < p.chainBytes.length
        · rw [getElem?_encode_behind, getElem?_encode_behind, getElem?_append_left inChain]
          exact getElem?_append_left inChain
        · obtain ⟨k, rfl⟩ : ∃ k, j = p.chainBytes.length + k := ⟨j - p.chainBytes.length, by omega⟩
          rw [← Nat.add_assoc, getElem?_encode_body]
          refine (behind k).trans (same k fun f here => ?_)
          have apart := outside f here
          omega

end Change

/-! ### The bodies of a datagram -/

section Bodies

variable {src dst newSrc newDst : IPv6Addr} {proto : UInt8} {x : IPv6Packet × ℕ}
  {label : Option (AlignedBuffer 4)}

theorem getElem?_rewriteAt {f : UInt16 → UInt16} {bytes : List UInt8} {site : Option ℕ} {i : ℕ}
    (fits : ∀ w, site = some w → w + 2 ≤ bytes.length)
    (outside : ∀ w, site = some w → ¬(w ≤ i ∧ i < w + 2)) :
    (rewriteAt f bytes site)[i]? = bytes[i]? := by
  cases site with
  | none => rfl
  | some w => exact (getElem?_splice (fits w rfl) i).trans (if_neg (outside w rfl))

/-- The new body of a packet, with the checksum of the datagram's protocol. -/
def newBody (src dst newSrc newDst : IPv6Addr) (proto : UInt8) (p : IPv6Packet) : List UInt8 :=
  rewriteAt (checksumWord (deltaIPv6Checksum src dst newSrc newDst) proto) p.body p.site

theorem IsPart.body_readdressed (part : IsPart src dst proto x) :
    (x.1.readdressed newSrc newDst label).body = newBody src dst newSrc newDst proto x.1 := by
  show rewriteAt (checksumWord (deltaIPv6Checksum x.1.src x.1.dst newSrc newDst) x.1.final) x.1.body
    x.1.site = _
  rw [newBody, part.src_eq, part.dst_eq]
  rcases part.site_cases with none | ⟨final_eq, -⟩
  · rw [none]
    rfl
  · rw [final_eq]

/-- The body is not changed outside of the field exactly if the field is rewritten, or the body is
not changed at all. -/
theorem IsPart.untouched_iff (part : IsPart src dst proto x) :
    Untouched x.1 (field proto x) (x.1.readdressed newSrc newDst label).encode ↔
      x.1.site = field proto x ∨ newBody src dst newSrc newDst proto x.1 = x.1.body := by
  have fits (w : ℕ) (here : x.1.site = some w) : w + 2 ≤ x.1.body.length := x.1.site_fits here
  rw [untouched_readdressed_iff, part.body_readdressed]
  constructor
  · intro same
    rcases part.site_cases with none | ⟨-, lands | ⟨-, w, here, apart⟩⟩
    · exact .inr (by rw [newBody, none, rewriteAt])
    · exact .inl lands
    · -- no byte is in both fields
      refine .inr (ext_getElem? fun i => ?_)
      by_cases inside : w ≤ i ∧ i < w + 2
      · refine same i fun f found => ?_
        have shifted := apart f found
        omega
      · refine getElem?_rewriteAt fits fun w' here' => ?_
        rwa [← Option.some.inj (here.symm.trans here')]
  · rintro (lands | same) i outside
    · exact getElem?_rewriteAt fits (lands ▸ outside)
    · rw [same]

/-- Another word than the checksum is changed unless the addresses have the same sum. -/
theorem IsPart.newBody_eq_iff (part : IsPart src dst proto x) {w : ℕ} (here : x.1.site = some w)
    (misses : x.1.site ≠ field proto x) :
    newBody src dst newSrc newDst proto x.1 = x.1.body ↔
      SameSum src dst newSrc newDst ∧ fieldAt x.1.body w ≠ 0xFFFF := by
  have fits := x.1.site_fits here
  have adjusts := deltaIPv6Checksum_adjusts src dst newSrc newDst
  have other : ¬IsUDP proto := by
    rcases part.site_cases with none | ⟨-, lands | ⟨other, -⟩⟩
    · cases none.symm.trans here
    · exact absurd lands misses
    · exact other
  rw [newBody, here, rewriteAt, SameSum, ← checksumWord_eq_self_iff adjusts other]
  constructor
  · intro same
    have word := fieldAt_rewriteField (f := checksumWord (deltaIPv6Checksum src dst newSrc newDst) proto)
      fits
    rw [same] at word
    exact word.symm
  · exact rewriteField_eq_self fits

end Bodies

/-! ### The segment -/

section Segment

variable {src dst newSrc newDst : IPv6Addr} {proto : UInt8} {pkts : List IPv6Packet} {place : ℕ}

theorem le_of_mem_carried {x : IPv6Packet × ℕ} (member : x ∈ carried place pkts) : place ≤ x.2 := by
  induction pkts generalizing place with
  | nil => cases member
  | cons p pkts ih =>
    rcases mem_cons.mp member with rfl | member
    · exact le_rfl
    · exact (Nat.le_add_right _ _).trans (ih member)

/-- The parts do not overlap. -/
theorem carried_apart {x y : IPv6Packet × ℕ} (hx : x ∈ carried place pkts)
    (hy : y ∈ carried place pkts) :
    x = y ∨ x.2 + x.1.body.length ≤ y.2 ∨ y.2 + y.1.body.length ≤ x.2 := by
  induction pkts generalizing place with
  | nil => cases hx
  | cons p pkts ih =>
    rcases mem_cons.mp hx with rfl | hx
    · rcases mem_cons.mp hy with rfl | hy
      · exact .inl rfl
      · exact .inr (.inl (le_of_mem_carried hy))
    · rcases mem_cons.mp hy with rfl | hy
      · exact .inr (.inr (le_of_mem_carried hx))
      · exact ih hx hy

/-- The checksum is in one of the parts only. -/
theorem eq_of_field {x y : IPv6Packet × ℕ} (hx : x ∈ carried place pkts)
    (hy : y ∈ carried place pkts) (inX : field proto x ≠ none) (inY : field proto y ≠ none) :
    x = y := by
  rw [field, fieldSite] at inX inY
  split_ifs at inX inY
  · rcases carried_apart hx hy with same | before | behind
    · exact same
    · omega
    · omega
  · exact absurd rfl inY
  · exact absurd rfl inX
  · exact absurd rfl inX

/-- If each part is rewritten where its checksum is, so is the segment. -/
theorem flatMap_rewriteAt_field {f : UInt16 → UInt16} {g : IPv6Packet → List UInt8}
    (aligned : ∀ x ∈ carried place pkts, 2 ∣ x.2)
    (rewrites : ∀ x ∈ carried place pkts, g x.1 = rewriteAt f x.1.body (field proto x)) :
    pkts.flatMap g =
      rewriteAt f (segment pkts) (fieldSite (checksumOffset proto) place (segment pkts).length) := by
  induction pkts generalizing place with
  | nil =>
    have none : fieldSite (checksumOffset proto) place 0 = none := if_neg (by omega)
    show [] = rewriteAt f [] (fieldSite (checksumOffset proto) place 0)
    rw [none, rewriteAt]
  | cons p pkts ih =>
    rw [carried, forall_mem_cons] at aligned rewrites
    rw [flatMap_cons, rewrites.1, ih aligned.2 rewrites.2]
    cases pkts with
    | nil =>
      have none : fieldSite (checksumOffset proto) (place + p.body.length) 0 = none :=
        if_neg (by omega)
      show _ ++ rewriteAt f [] (fieldSite _ _ 0) =
        rewriteAt f (p.body ++ []) (fieldSite _ _ (p.body ++ []).length)
      rw [none, rewriteAt, append_nil, append_nil]
      rfl
    | cons next pkts =>
      have cut : 2 ∣ p.body.length :=
        (Nat.dvd_add_right aligned.1).mp (aligned.2 _ mem_cons_self)
      exact (rewriteAt_fieldSite_append (even_checksumOffset proto) aligned.1 cut _).symm

theorem even_pseudoTailV6 (proto : UInt8) (length : ℕ) : 2 ∣ (pseudoTailV6 proto length).length := by
  exact ⟨4, rfl⟩

theorem wordSum_pseudoTailV6 (known : HasChecksum proto) (length : ℕ) :
    wordSum (pseudoTailV6 proto length) ≠ 0 := by
  have positive : wordSum [0, 0, 0, proto] ≠ 0 := by
    rcases known with rfl | rfl | rfl | rfl
    all_goals decide
  have even : 2 ∣ (bigEndian 4 length).length := by
    rw [length_bigEndian]
    decide
  rw [pseudoTailV6, wordSum_append even]
  omega

/-- All parts are rewritten where the checksum is. -/
theorem verifiesV6_of_rewrites (known : HasChecksum proto)
    (parts : ∀ x ∈ carried 0 pkts, IsPart src dst proto x)
    (rewrites : ∀ x ∈ carried 0 pkts, newBody src dst newSrc newDst proto x.1 =
      rewriteAt (checksumWord (deltaIPv6Checksum src dst newSrc newDst) proto) x.1.body
        (field proto x))
    (verifies : VerifiesV6 src dst proto (segment pkts)) :
    VerifiesV6 newSrc newDst proto (pkts.flatMap (newBody src dst newSrc newDst proto)) := by
  have even : 2 ∣ 8 := by decide
  have fits := verifies.covers.trans verifies.within
  rw [flatMap_rewriteAt_field (fun x member => even.trans (parts x member).aligned) rewrites,
    fieldSite, if_pos ⟨Nat.zero_le _, fits⟩]
  exact SegmentVerifies.rewriteField ⟨8, rfl⟩ (even_pseudoTailV6 proto) (wordSum_pseudoTailV6 known)
    (deltaIPv6Checksum_adjusts src dst newSrc newDst) verifies

/-- The part with the checksum is left as it is, and so is the segment. -/
theorem flatMap_newBody_eq {x : IPv6Packet × ℕ} (member : x ∈ carried 0 pkts)
    (parts : ∀ y ∈ carried 0 pkts, y.1.site = field proto y ∨
      newBody src dst newSrc newDst proto y.1 = y.1.body)
    (has : field proto x ≠ none) (same : newBody src dst newSrc newDst proto x.1 = x.1.body) :
    pkts.flatMap (newBody src dst newSrc newDst proto) = segment pkts := by
  have unchanged (y : IPv6Packet × ℕ) (hy : y ∈ carried 0 pkts) :
      newBody src dst newSrc newDst proto y.1 = y.1.body := by
    rcases parts y hy with lands | kept
    · by_cases inY : field proto y = none
      · rw [newBody, lands, inY, rewriteAt]
      · rw [← eq_of_field member hy has inY]
        exact same
    · exact kept
  have all : (carried 0 pkts).map Prod.fst = pkts := map_fst_carried 0 pkts
  rw [segment, ← all, flatMap_map, flatMap_map]
  exact flatMap_congr unchanged

end Segment

/-! ### Datagrams with new addresses -/

section Datagram

variable {src dst newSrc newDst : IPv6Addr} {proto : UInt8} {pkts : List IPv6Packet}
  {label : IPv6Packet → Option (AlignedBuffer 4)}

theorem mapM_updateIPv6Address
    (packets : ∀ p ∈ pkts, 40 < p.encode.size ∧ (stop p.chain = none → HasChecksum p.final)) :
    pkts.mapM (fun p => p.encode.updateIPv6Address newSrc newDst (label p)) =
      .ok (pkts.map fun p => (p.readdressed newSrc newDst (label p)).encode) := by
  induction pkts with
  | nil => rfl
  | cons p pkts ih =>
    rw [forall_mem_cons] at packets
    obtain ⟨⟨large, ends⟩, rest⟩ := packets
    have transport (none : stop p.chain = none) :
        p.final ≠ 0 ∧ p.final ≠ 43 ∧ p.final ≠ 60 ∧ p.final ≠ 44 := by
      rcases ends none with known | known | known | known
      all_goals
        rw [known]
        decide
    rw [mapM_cons, p.updateIPv6Address_encode large transport, ih rest]
    rfl

/-- What is claimed, in terms of the new bodies. -/
theorem rewrites_iff_newBody (parts : ∀ x ∈ carried 0 pkts, IsPart src dst proto x) :
    Rewrites src dst newSrc newDst proto label pkts ↔
      (VerifiesV6 src dst proto (segment pkts) →
        VerifiesV6 newSrc newDst proto (pkts.flatMap (newBody src dst newSrc newDst proto))) ∧
      ∀ x ∈ carried 0 pkts, x.1.site = field proto x ∨
        newBody src dst newSrc newDst proto x.1 = x.1.body := by
  have all : (carried 0 pkts).map Prod.fst = pkts := map_fst_carried 0 pkts
  have part (p : IPv6Packet) (member : p ∈ pkts) : ∃ place, IsPart src dst proto (p, place) := by
    rw [← all] at member
    obtain ⟨⟨p, place⟩, carries, rfl⟩ := mem_map.mp member
    exact ⟨place, parts _ carries⟩
  have updates : pkts.mapM (fun p => p.encode.updateIPv6Address newSrc newDst (label p)) = _ :=
    mapM_updateIPv6Address fun p member => by
      obtain ⟨place, isPart⟩ := part p member
      exact ⟨isPart.large, isPart.ends⟩
  have bodies : (pkts.zipWith bodyOf (pkts.map fun p =>
      (p.readdressed newSrc newDst (label p)).encode)).flatten =
        pkts.flatMap (newBody src dst newSrc newDst proto) := by
    rw [zipWith_map_right, zipWith_self]
    refine flatMap_congr fun p member => ?_
    obtain ⟨place, isPart⟩ := part p member
    rw [bodyOf_readdressed, isPart.body_readdressed]
  have untouched : List.Forall₂ (fun x => Untouched x.1 (field proto x)) (carried 0 pkts)
      (pkts.map fun p => (p.readdressed newSrc newDst (label p)).encode) ↔
        ∀ x ∈ carried 0 pkts, x.1.site = field proto x ∨
          newBody src dst newSrc newDst proto x.1 = x.1.body := by
    conv_lhs => rw [← all, map_map, map_fst_carried]
    rw [forall₂_map_right_iff, forall₂_same]
    exact forall₂_congr fun x member => (parts x member).untouched_iff
  rw [Rewrites, updates]
  constructor
  · rintro ⟨rewritten, same, verifies, others⟩
    obtain rfl := Except.ok.inj same
    rw [bodies] at verifies
    exact ⟨verifies, untouched.mp others⟩
  · rintro ⟨verifies, others⟩
    rw [← bodies] at verifies
    exact ⟨_, rfl, verifies, untouched.mpr others⟩

/-- A datagram is rewritten as it should be exactly if each of its packets is. -/
theorem updateIPv6Address_rewrites_iff {inner : List Extension} {first : IPv6Packet} {later : List IPv6Packet}
    (datagram : IsDatagram src dst proto inner first later) (known : HasChecksum proto)
    (newSrc newDst : IPv6Addr) (label : IPv6Packet → Option (AlignedBuffer 4)) :
    Rewrites src dst newSrc newDst proto label (first :: later) ↔
      ∀ x ∈ carried 0 (first :: later), FindsChecksum src dst newSrc newDst proto
        (VerifiesV6 src dst proto (segment (first :: later))) x := by
  have parts (x : IPv6Packet × ℕ) (member : x ∈ carried 0 (first :: later)) :
      IsPart src dst proto x := datagram.isPart known member
  rw [rewrites_iff_newBody parts, forall₂_congr fun x member => (parts x member).findsChecksum_iff]
  generalize first :: later = pkts at parts
  constructor
  · rintro ⟨verifies, others⟩ x member
    by_cases lands : x.1.site = field proto x
    · exact .inl lands
    · have same := (others x member).resolve_left lands
      cases here : x.1.site with
      | some w =>
        obtain ⟨sums, word⟩ := ((parts x member).newBody_eq_iff here lands).mp same
        refine .inr (.inl ⟨sums, fun w' here' => ?_⟩)
        rwa [← Option.some.inj here']
      | none =>
        -- the checksum is left as it is, and has to verify for the new addresses
        by_cases before : VerifiesV6 src dst proto (segment pkts)
        · have has : field proto x ≠ none := fun none => lands (here.trans none.symm)
          have after := verifies before
          rw [flatMap_newBody_eq member others has same] at after
          have sums := (SegmentVerifies.unchanged_iff ⟨8, rfl⟩ (even_pseudoTailV6 proto)
            (wordSum_pseudoTailV6 known) before).mp after
          exact .inr (.inl ⟨sums, nofun⟩)
        · exact .inr (.inr ⟨rfl, before⟩)
  · intro lands
    have others (x : IPv6Packet × ℕ) (member : x ∈ carried 0 pkts) : x.1.site = field proto x ∨
        newBody src dst newSrc newDst proto x.1 = x.1.body := by
      by_cases here : x.1.site = field proto x
      · exact .inl here
      · right
        cases found : x.1.site with
        | none => rw [newBody, found, rewriteAt]
        | some w =>
          rcases lands x member with same | ⟨sums, word⟩ | ⟨none, -⟩
          · exact absurd same here
          · exact ((parts x member).newBody_eq_iff found here).mpr ⟨sums, word w found⟩
          · cases none.symm.trans found
    refine ⟨fun before => ?_, others⟩
    by_cases rewrites : ∀ x ∈ carried 0 pkts, newBody src dst newSrc newDst proto x.1 =
        rewriteAt (checksumWord (deltaIPv6Checksum src dst newSrc newDst) proto) x.1.body
          (field proto x)
    · exact verifiesV6_of_rewrites known parts rewrites before
    · -- a part that has the checksum is left as it is, so the addresses have the same sum
      push Not at rewrites
      obtain ⟨x, member, different⟩ := rewrites
      have here : x.1.site ≠ field proto x := fun here => different (by rw [newBody, here])
      have same := (others x member).resolve_left here
      have has : field proto x ≠ none := fun none => different (by rw [same, none, rewriteAt])
      rw [flatMap_newBody_eq member others has same]
      rcases lands x member with lands | ⟨sums, -⟩ | ⟨-, fails⟩
      · exact absurd lands here
      · exact (SegmentVerifies.unchanged_iff ⟨8, rfl⟩ (even_pseudoTailV6 proto)
          (wordSum_pseudoTailV6 known) before).mpr sums
      · exact absurd before fails

end Datagram

/-! ### Examples -/

def exampleAddrV6 (last : UInt8) : IPv6Addr :=
  ⟨[0xFD, 0, 0, 0, 0, 0, 0, 0, 0, 0, 0, 0, 0, 0, 0, last], rfl⟩

def exampleFragment (low : UInt8) : Extension := .fragment 0 0 low ⟨[0, 0, 0, 7], rfl⟩

/-- A packet from `fd00::1` to `fd00::2`. -/
def examplePacketV6 (length : UInt8) (chain : List Extension) (final : UInt8) (body : List UInt8) :
    IPv6Packet :=
  ⟨⟨[0x60, 0, 0, 0, 0, length], rfl⟩, 64, exampleAddrV6 1, exampleAddrV6 2, chain, final, body⟩

/-- The first and the last bytes of a TCP segment; the checksum is in the latter. -/
def exampleSegment : List UInt8 × List UInt8 :=
  ([4, 210, 0, 80, 0, 0, 0, 1, 0, 0, 0, 0, 80, 2, 32, 0], [140, 177, 0, 0, 1, 2, 3, 4])

/-- The segment in one packet, with a fragment header in which a reserved bit may be set. -/
def exampleAtomic (low : UInt8) : IPv6Packet :=
  examplePacketV6 32 [exampleFragment low] 6 (exampleSegment.1 ++ exampleSegment.2)

/-- Destination options without any option. -/
def exampleOptions : Extension := .options 60 0 [1, 4, 0, 0, 0, 0] (.inr (.inr rfl)) rfl

/-- The segment in two fragments, with destination options behind the fragment header. -/
def exampleFirst : IPv6Packet :=
  examplePacketV6 32 [exampleFragment 1, exampleOptions] 6 exampleSegment.1

def exampleSecond : IPv6Packet := examplePacketV6 16 [exampleFragment 24] 60 exampleSegment.2

theorem verifies_exampleSegment : VerifiesV6 (exampleAddrV6 1) (exampleAddrV6 2) 6
    (exampleSegment.1 ++ exampleSegment.2) := by
  refine ⟨?_, ?_, .inr ⟨?_, ?_⟩⟩
  all_goals decide +kernel

theorem isDatagram_exampleAtomic {low : UInt8} (whole : (exampleFragment low).offset = 0) :
    IsDatagram (exampleAddrV6 1) (exampleAddrV6 2) 6 [] (exampleAtomic low) [] where
  addresses p member := by
    rw [mem_singleton.mp member]
    exact ⟨rfl, rfl⟩
  large p member := by
    rw [mem_singleton.mp member]
    exact Nat.lt_of_lt_of_le (by decide : 40 < 40 + (8 + 24)) le_rfl
  whole e member := by rwa [mem_singleton.mp member]
  final_eq := rfl
  fragmented more := absurd rfl more
  fragments x member := nomatch member

theorem isDatagram_exampleFirst :
    IsDatagram (exampleAddrV6 1) (exampleAddrV6 2) 6 [exampleOptions] exampleFirst
      [exampleSecond] where
  addresses p member := by
    rcases mem_pair.mp member with rfl | rfl
    · exact ⟨rfl, rfl⟩
    · exact ⟨rfl, rfl⟩
  large p member := by
    rcases mem_pair.mp member with rfl | rfl
    all_goals decide +kernel
  whole e member := by
    rcases mem_pair.mp member with rfl | rfl
    all_goals decide +kernel
  final_eq := rfl
  fragmented _ := ⟨[], exampleFragment 1, rfl, rfl⟩
  fragments x member := by
    rw [mem_singleton.mp member]
    refine ⟨[], exampleFragment 24, rfl, nofun, rfl, ?_, rfl⟩
    decide +kernel

/-- With the reserved bit set, the data offset and the flags of TCP are changed in place of the
checksum. With options behind the fragment header, the checksum in the second fragment is left as it
was, and does not verify. -/
theorem reserved_bit_and_options_misplace_checksum :
    IsDatagram (exampleAddrV6 1) (exampleAddrV6 2) 6 [] (exampleAtomic 4) [] ∧
    VerifiesV6 (exampleAddrV6 1) (exampleAddrV6 2) 6 (segment [exampleAtomic 4]) ∧
    ¬Rewrites (exampleAddrV6 1) (exampleAddrV6 2) (exampleAddrV6 7) (exampleAddrV6 8) 6
      (fun _ => none) [exampleAtomic 4] ∧
    IsDatagram (exampleAddrV6 1) (exampleAddrV6 2) 6 [exampleOptions] exampleFirst
      [exampleSecond] ∧
    VerifiesV6 (exampleAddrV6 1) (exampleAddrV6 2) 6 (segment [exampleFirst, exampleSecond]) ∧
    ¬Rewrites (exampleAddrV6 1) (exampleAddrV6 2) (exampleAddrV6 7) (exampleAddrV6 8) 6
      (fun _ => none) [exampleFirst, exampleSecond] := by
  have before := verifies_exampleSegment
  have atomic : IsDatagram (exampleAddrV6 1) (exampleAddrV6 2) 6 [] (exampleAtomic 4) [] :=
    isDatagram_exampleAtomic rfl
  refine ⟨atomic, before, ?_, isDatagram_exampleFirst, before, ?_⟩
  · rw [rewrites_iff_newBody fun x => atomic.isPart (.inl rfl)]
    rintro ⟨-, others⟩
    have changed := others (exampleAtomic 4, 0) mem_cons_self
    revert changed
    decide +kernel
  · rw [rewrites_iff_newBody fun x => isDatagram_exampleFirst.isPart (.inl rfl)]
    rintro ⟨verifies, -⟩
    obtain ⟨-, -, ⟨optional, -⟩ | ⟨-, sum⟩⟩ := verifies before
    · cases optional
    · revert sum
      decide +kernel

/-- Without the reserved bit, the checksum is found. -/
theorem updateIPv6Address_rewrites_atomic :
    Rewrites (exampleAddrV6 1) (exampleAddrV6 2) (exampleAddrV6 7) (exampleAddrV6 8) 6
      (fun _ => none) [exampleAtomic 0] := by
  have datagram : IsDatagram (exampleAddrV6 1) (exampleAddrV6 2) 6 [] (exampleAtomic 0) [] :=
    isDatagram_exampleAtomic rfl
  refine (updateIPv6Address_rewrites_iff datagram (.inl rfl) (exampleAddrV6 7) (exampleAddrV6 8)
    fun _ => none).mpr fun x member => ?_
  rw [mem_singleton.mp member]
  -- no reserved bit is set, and the transport protocol is next
  have clear : ¬Reserved (exampleFragment 0) := (by decide : ¬(0 : UInt8).toNat / 4 % 2 = 1)
  refine ⟨fun lost => ?_, fun w _ shifted => ?_⟩
  · rcases lost with (other | ⟨e, before, -⟩) | ⟨⟨-, e, last, reserved⟩, -⟩
    · exact absurd rfl other
    · cases before
    · obtain rfl : exampleFragment 0 = e := Option.some.inj last
      exact absurd reserved clear
  · obtain ⟨-, e, last, reserved⟩ := shifted
    obtain rfl : exampleFragment 0 = e := Option.some.inj last
    exact absurd reserved clear

end IPv6Packet

end Llarp
