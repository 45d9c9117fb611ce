import Llarp.Net.Rewriting

/-!
# Extension headers

The headers of an IPv6 packet form a chain, in which each one names the kind of the next. A
fragment header has an offset of 13 bits, then two reserved bits and a flag. The loop along the
chain reads one of the reserved bits as part of the offset, and it stops at the first fragment
header with an offset that is not zero, as if the transport header came next.
-/

namespace Llarp

open Foundation IPPacket List

/-- A header between the fixed header and that of the transport protocol, without the kind of the
next one. -/
inductive Extension where
  /-- hop-by-hop options, routing or destination options -/
  | options (kind len : UInt8) (data : List UInt8) (isKind : kind = 0 ∨ kind = 43 ∨ kind = 60)
      (length : data.length = len.toNat * 8 + 6)
  | fragment (reserved high low : UInt8) (identification : AlignedBuffer 4)

namespace Extension

def kind : Extension → UInt8
  | options kind _ _ _ _ => kind
  | fragment _ _ _ _ => 44

def encode (next : UInt8) : Extension → List UInt8
  | options _ len data _ _ => next :: len :: data
  | fragment reserved high low identification =>
    next :: reserved :: high :: low :: identification.bytes

/-- The offset of the fragment, in bytes. -/
def offset : Extension → ℕ
  | options _ _ _ _ _ => 0
  | fragment _ high low _ => high.toNat * 2 ^ 8 + low.toNat / 8 * 8

/-- The offset together with one of the reserved bits, as the loop reads it. -/
def fragoff : Extension → ℕ
  | options _ _ _ _ _ => 0
  | fragment _ high low _ => high.toNat * 2 ^ 8 + (low &&& 0xFC).toNat

/-- The kind of the first header of a chain. -/
def firstKind (final : UInt8) : List Extension → UInt8
  | [] => final
  | e :: _ => e.kind

def encodeChain (final : UInt8) : List Extension → List UInt8
  | [] => []
  | e :: chain => e.encode (firstKind final chain) ++ encodeChain final chain

/-- The first header that the loop takes for that of a later fragment: the offset that it reads,
and the headers behind. -/
def stop : List Extension → Option (ℕ × List Extension)
  | [] => none
  | e :: chain => if e.fragoff ≠ 0 then some (e.fragoff, chain) else stop chain

def size : Extension → ℕ
  | options _ len _ _ _ => (len.toNat + 1) * 8
  | fragment _ _ _ _ => 8

@[simp] theorem length_encode (e : Extension) (next : UInt8) : (e.encode next).length = e.size := by
  cases e with
  | options kind len data isKind length =>
    simp only [encode, size, length_cons]
    omega
  | fragment reserved high low identification => simp [encode, size, identification.length_eq]

theorem eight_le_size (e : Extension) : 8 ≤ e.size := by
  cases e with
  | options kind len data isKind length =>
    rw [size]
    omega
  | fragment reserved high low identification => exact le_rfl

theorem length_le_encodeChain (final : UInt8) (chain : List Extension) :
    8 * chain.length ≤ (encodeChain final chain).length := by
  induction chain with
  | nil => exact Nat.zero_le _
  | cons e chain ih =>
    have first := e.eight_le_size
    rw [encodeChain, length_append, length_encode, length_cons]
    omega

end Extension

namespace IPPacket

open Extension

/-- Where the loop comes to an end: behind the whole chain, or at a later fragment. -/
def reached (final : UInt8) : (chain : List Extension) → (pld psz : ℕ) → Transport
  | [], pld, psz => ⟨final, pld, psz, 0⟩
  | e :: chain, pld, psz =>
    if e.fragoff ≠ 0 then ⟨firstKind final chain, pld + e.size, psz - e.size, e.fragoff⟩
    else reached final chain (pld + e.size) (psz - e.size)

theorem byte_append {front rest : List UInt8} {i : ℕ} {value : UInt8}
    (found : rest[i]? = some value) :
    byte ⟨front ++ rest⟩ (front.length + i) = .ok value := by
  rw [byte, getElem?_append_right (Nat.le_add_right _ _), Nat.add_sub_cancel_left, found]

variable {final : UInt8} {psz : ℕ} {chain : List Extension}

theorem extensionHeaders_options {kind len : UInt8} (isKind : kind = 0 ∨ kind = 43 ∨ kind = 60)
    (next : UInt8) (front rest : List UInt8) (fuel : ℕ) (whole : (len.toNat + 1) * 8 ≤ psz) :
    extensionHeaders ⟨front ++ next :: len :: rest⟩ (fuel + 1) kind front.length psz =
      extensionHeaders ⟨front ++ next :: len :: rest⟩ fuel next
        (front.length + (len.toNat + 1) * 8) (psz - (len.toNat + 1) * 8) := by
  have first : byte ⟨front ++ next :: len :: rest⟩ front.length = .ok next :=
    byte_append (i := 0) rfl
  have second : byte ⟨front ++ next :: len :: rest⟩ (front.length + 1) = .ok len :=
    byte_append rfl
  rw [extensionHeaders, if_pos isKind, first, second]
  exact if_neg (not_lt.mpr whole)

theorem extensionHeaders_fragment (next reserved high low : UInt8) (front rest : List UInt8)
    (fuel : ℕ) (whole : 8 ≤ psz) :
    extensionHeaders ⟨front ++ next :: reserved :: high :: low :: rest⟩ (fuel + 1) 44
        front.length psz =
      if high.toNat * 2 ^ 8 + (low &&& 0xFC).toNat ≠ 0 then
        .ok (some ⟨next, front.length + 8, psz - 8, high.toNat * 2 ^ 8 + (low &&& 0xFC).toNat⟩)
      else extensionHeaders ⟨front ++ next :: reserved :: high :: low :: rest⟩ fuel next
        (front.length + 8) (psz - 8) := by
  have first : byte ⟨front ++ next :: reserved :: high :: low :: rest⟩ front.length =
      .ok next := byte_append (i := 0) rfl
  have third : byte ⟨front ++ next :: reserved :: high :: low :: rest⟩ (front.length + 2) =
      .ok high := byte_append rfl
  have fourth : byte ⟨front ++ next :: reserved :: high :: low :: rest⟩
      (front.length + 3) = .ok low := byte_append rfl
  rw [extensionHeaders, first, third, fourth]
  exact if_neg (not_lt.mpr whole)

/-- The loop at one header. -/
theorem extensionHeaders_step (e : Extension) (next : UInt8) (front rest : List UInt8) (fuel : ℕ)
    (whole : e.size ≤ psz) :
    extensionHeaders ⟨front ++ (e.encode next ++ rest)⟩ (fuel + 1) e.kind front.length psz =
      if e.fragoff ≠ 0 then .ok (some ⟨next, front.length + e.size, psz - e.size, e.fragoff⟩)
      else extensionHeaders ⟨front ++ (e.encode next ++ rest)⟩ fuel next
        (front.length + e.size) (psz - e.size) := by
  cases e with
  | options k len data isKind length =>
    have goes := extensionHeaders_options isKind next front (data ++ rest) fuel whole
    exact goes
  | fragment reserved high low identification =>
    exact extensionHeaders_fragment next reserved high low front (identification.bytes ++ rest) fuel
      whole

/-- The loop goes along the chain. -/
theorem extensionHeaders_eq
    (ends : stop chain = none → final ≠ 0 ∧ final ≠ 43 ∧ final ≠ 60 ∧ final ≠ 44)
    (front body : List UInt8) {fuel : ℕ} (enough : chain.length < fuel)
    (whole : (encodeChain final chain).length ≤ psz) :
    extensionHeaders ⟨front ++ (encodeChain final chain ++ body)⟩ fuel
        (firstKind final chain) front.length psz =
      .ok (some (reached final chain front.length psz)) := by
  induction chain generalizing front fuel psz with
  | nil =>
    obtain ⟨-, rfl⟩ : ∃ n, fuel = n + 1 := Nat.exists_eq_succ_of_ne_zero (by omega)
    obtain ⟨hopByHop, routing, destination, fragment⟩ := ends rfl
    have other : ¬(final = 0 ∨ final = 43 ∨ final = 60) := by
      rintro (same | same | same)
      · exact hopByHop same
      · exact routing same
      · exact destination same
    rw [firstKind, extensionHeaders, if_neg other, if_neg fragment, reached]
  | cons e chain ih =>
    obtain ⟨fuel, rfl⟩ : ∃ n, fuel = n + 1 := Nat.exists_eq_succ_of_ne_zero (by omega)
    rw [encodeChain, length_append, length_encode] at whole
    rw [encodeChain, append_assoc, firstKind, extensionHeaders_step e _ _ _ _ (by omega), reached]
    split_ifs with moves
    · rfl
    · have behind : (front ++ e.encode (firstKind final chain)).length = front.length + e.size := by
        rw [length_append, length_encode]
      have left : chain.length < fuel := Nat.lt_of_succ_lt_succ enough
      have fits : (encodeChain final chain).length ≤ psz - e.size := by omega
      have further := ih (fun none => ends (by rwa [stop, if_neg moves]))
        (front ++ e.encode (firstKind final chain)) left fits
      rwa [behind, append_assoc] at further

theorem reached_of_none (none : stop chain = none) (pld psz : ℕ) :
    reached final chain pld psz =
      ⟨final, pld + (encodeChain final chain).length, psz - (encodeChain final chain).length, 0⟩ := by
  induction chain generalizing pld psz with
  | nil => rfl
  | cons e chain ih =>
    rw [stop] at none
    split_ifs at none with moves
    rw [reached, if_neg moves, ih none, encodeChain, length_append, length_encode]
    rw [Nat.add_assoc, Nat.sub_sub]

theorem reached_of_last {fragoff : ℕ} (last : stop chain = some (fragoff, [])) (pld psz : ℕ) :
    reached final chain pld psz =
      ⟨final, pld + (encodeChain final chain).length, psz - (encodeChain final chain).length,
        fragoff⟩ := by
  induction chain generalizing pld psz with
  | nil => cases last
  | cons e chain ih =>
    rw [stop] at last
    rw [reached, encodeChain, length_append, length_encode]
    split_ifs at last with moves
    · obtain ⟨rfl, rfl⟩ := Prod.mk.inj (Option.some.inj last)
      rw [if_pos moves]
      rfl
    · rw [if_neg moves, ih last, Nat.add_assoc, Nat.sub_sub]

/-- At a fragment header that is followed by another one the transport protocol is not known. -/
theorem nextproto_reached (final : UInt8) {fragoff : ℕ} {e : Extension} {behind : List Extension}
    (stops : stop chain = some (fragoff, e :: behind)) (pld psz : ℕ) :
    (reached final chain pld psz).nextproto = e.kind := by
  induction chain generalizing pld psz with
  | nil => cases stops
  | cons first chain ih =>
    rw [stop] at stops
    rw [reached]
    split_ifs at stops with moves
    · obtain ⟨rfl, rfl⟩ := Prod.mk.inj (Option.some.inj stops)
      rw [if_pos moves]
      rfl
    · rw [if_neg moves]
      exact ih stops _ _

end IPPacket

/-! ### Packets -/

/-- An IPv6 packet: what precedes the kind of the first header, the rest of the fixed header, the
chain up to a header of the kind `final`, and what is behind. -/
structure IPv6Packet where
  front : AlignedBuffer 6
  hoplimit : UInt8
  src : IPv6Addr
  dst : IPv6Addr
  chain : List Extension
  final : UInt8
  body : List UInt8

namespace IPv6Packet

open Extension IPPacket

def chainBytes (p : IPv6Packet) : List UInt8 := encodeChain p.final p.chain

def start (p : IPv6Packet) : List UInt8 := p.front.bytes ++ [firstKind p.final p.chain, p.hoplimit]

def encode (p : IPv6Packet) : IPPacket :=
  ⟨p.start ++ (p.src.bytes ++ (p.dst.bytes ++ (p.chainBytes ++ p.body)))⟩

/-- The bytes of the flow label are taken from the label. -/
def mixLabel (old : List UInt8) (label : AlignedBuffer 4) : List UInt8 :=
  (old.zip label.bytes).zipWith
    (fun (old, new) mask => (mask &&& new) ||| (old &&& ~~~mask)) [0x00, 0x0F, 0xFF, 0xFF]

theorem length_mixLabel {old : List UInt8} (four : old.length = 4) (label : AlignedBuffer 4) :
    (mixLabel old label).length = 4 := by
  simp [mixLabel, four, label.length_eq]

/-- A new flow label. -/
def relabel (front : AlignedBuffer 6) : Option (AlignedBuffer 4) → AlignedBuffer 6
  | none => front
  | some label =>
    ⟨mixLabel (front.bytes.take 4) label ++ front.bytes.drop 4, by
      have four : (front.bytes.take 4).length = 4 := by simp [front.length_eq]
      simp [length_mixLabel four, front.length_eq]⟩

/-- Where the checksum is rewritten in the part behind the chain. -/
def site (p : IPv6Packet) : Option ℕ :=
  if HasChecksum p.final then
    match stop p.chain with
    | none => checksumSite p.final 0 p.body.length
    | some (fragoff, []) => checksumSite p.final fragoff p.body.length
    | some (_, _ :: _) => none
  else none

/-- The packet with new addresses. -/
def readdressed (p : IPv6Packet) (src dst : IPv6Addr) (label : Option (AlignedBuffer 4)) :
    IPv6Packet :=
  { p with
    front := relabel p.front label
    src := src
    dst := dst
    body := rewriteAt (checksumWord (deltaIPv6Checksum p.src p.dst src dst) p.final) p.body p.site }

variable (p : IPv6Packet)

theorem length_start : p.start.length = 8 := by simp [start, p.front.length_eq]

theorem buf_encode : p.encode.buf = addressed p.start p.src p.dst (p.chainBytes ++ p.body) := rfl

theorem size_encode : p.encode.size = 40 + p.chainBytes.length + p.body.length := by
  rw [IPPacket.size, buf_encode, length_addressed p.length_start, length_append, ← Nat.add_assoc]

theorem window_src : window p.encode.buf 8 16 = p.src.bytes := window_addressed_src p.length_start

theorem window_dst : window p.encode.buf 24 16 = p.dst.bytes := window_addressed_dst p.length_start

theorem read_src : p.encode.read 8 16 = .ok p.src.bytes := by
  rw [read_eq (by rw [size_encode]; omega), window_src]

theorem read_dst : p.encode.read 24 16 = .ok p.dst.bytes := by
  rw [read_eq (by rw [size_encode]; omega), window_dst]

theorem write_src (new : IPv6Addr) :
    p.encode.write 8 new.bytes = .ok { p with src := new }.encode := by
  rw [write_eq (by rw [size_encode, new.length_eq]; omega)]
  exact congrArg (Except.ok ∘ IPPacket.mk) (splice_addressed_src p.length_start new)

theorem write_dst (new : IPv6Addr) :
    p.encode.write 24 new.bytes = .ok { p with dst := new }.encode := by
  rw [write_eq (by rw [size_encode, new.length_eq]; omega)]
  exact congrArg (Except.ok ∘ IPPacket.mk) (splice_addressed_dst p.length_start new)

theorem byte_next : p.encode.byte 6 = .ok (firstKind p.final p.chain) := by
  have found : p.encode.buf[6]? = some (firstKind p.final p.chain) := by
    rw [encode, getElem?_append_left (by rw [p.length_start]; decide), start,
      getElem?_append_right (by rw [p.front.length_eq]), p.front.length_eq]
    rfl
  rw [byte, found]

theorem setFlowLabel_encode (label : AlignedBuffer 4) :
    p.encode.setFlowLabel label = .ok { p with front := relabel p.front (some label) }.encode := by
  have four : (p.front.bytes.take 4).length = 4 := by simp [p.front.length_eq]
  have mixed := length_mixLabel four label
  have split (front : List UInt8) (rest : List UInt8) :
      (p.front.bytes ++ front) ++ rest =
        [] ++ (p.front.bytes.take 4 ++ (p.front.bytes.drop 4 ++ front ++ rest)) := by
    rw [nil_append, append_assoc, append_assoc, ← append_assoc (p.front.bytes.take 4),
      take_append_drop]
  rw [setFlowLabel, read_eq (by rw [size_encode]; omega), encode, start, split,
    window_middle length_nil four]
  show write _ 0 (mixLabel (p.front.bytes.take 4) label) = _
  rw [write_eq]
  · rw [splice_middle length_nil (by rw [mixed, four])]
    simp only [encode, start, relabel, chainBytes, nil_append, append_assoc]
  · rw [← split]
    show _ ≤ p.encode.size
    rw [size_encode]
    omega

theorem not_hasChecksum_kind (e : Extension) : ¬HasChecksum e.kind := by
  have options (kind : UInt8) (isKind : kind = 0 ∨ kind = 43 ∨ kind = 60) : ¬HasChecksum kind := by
    rcases isKind with rfl | rfl | rfl
    all_goals decide
  cases e with
  | options kind len data isKind length => exact options kind isKind
  | fragment reserved high low identification => exact (by decide : ¬HasChecksum 44)

theorem updateIPv6Transport_eq (pkt : IPPacket) (transport : Transport)
    (oldSrc oldDst src dst : IPv6Addr) :
    pkt.updateIPv6Transport transport oldSrc oldDst src dst =
      deltaChecksum (deltaIPv6Checksum oldSrc oldDst src dst) transport.nextproto pkt transport.pld
        transport.psz transport.fragoff :=
  rfl

theorem rewriteAt_encode (f : UInt16 → UInt16) (place : Option ℕ) :
    rewriteAt f p.encode.buf (place.map (40 + p.chainBytes.length + ·)) =
      { p with body := rewriteAt f p.body place }.encode.buf := by
  have rewritten := rewriteAt_append_right (f := f) (addressed p.start p.src p.dst p.chainBytes)
    p.body place
  rw [length_addressed p.length_start, addressed_append, addressed_append] at rewritten
  exact rewritten

/-- What is done where the loop comes to an end behind the chain. -/
theorem deltaChecksum_encode (delta : UInt16 → UInt16) (known : HasChecksum p.final)
    (fragoff : ℕ) :
    deltaChecksum delta p.final p.encode (40 + p.chainBytes.length)
        (p.encode.size - 40 - p.chainBytes.length) fragoff =
      .ok { p with
        body := rewriteAt (checksumWord delta p.final) p.body
          (checksumSite p.final fragoff p.body.length) }.encode := by
  have size := p.size_encode
  have rest : p.encode.size - 40 - p.chainBytes.length = p.body.length := by omega
  rw [rest, deltaChecksum_eq known (by omega), rewriteAt_encode]

/-- What the loop finds, and what is done with it. -/
theorem updateIPv6Transport_encode (oldSrc oldDst src dst : IPv6Addr) :
    p.encode.updateIPv6Transport (reached p.final p.chain 40 (p.encode.size - 40)) oldSrc oldDst
        src dst =
      .ok { p with
        body := rewriteAt (checksumWord (deltaIPv6Checksum oldSrc oldDst src dst) p.final) p.body
          p.site }.encode := by
  rw [updateIPv6Transport_eq, site]
  cases stops : stop p.chain with
  | none =>
    rw [reached_of_none stops]
    split_ifs with known
    · exact p.deltaChecksum_encode _ known 0
    · exact deltaChecksum_other known
  | some found =>
    obtain ⟨fragoff, _ | ⟨e, behind⟩⟩ := found
    · rw [reached_of_last stops]
      split_ifs with known
      · exact p.deltaChecksum_encode _ known fragoff
      · exact deltaChecksum_other known
    · have kind := nextproto_reached p.final stops 40 (p.encode.size - 40)
      rw [kind, ite_self]
      exact deltaChecksum_other (not_hasChecksum_kind e)

/-- The loop starts behind the fixed header. -/
theorem extensionHeaders_encode
    (ends : stop p.chain = none → p.final ≠ 0 ∧ p.final ≠ 43 ∧ p.final ≠ 60 ∧ p.final ≠ 44) :
    p.encode.extensionHeaders p.encode.size (firstKind p.final p.chain) 40 (p.encode.size - 40) =
      .ok (some (reached p.final p.chain 40 (p.encode.size - 40))) := by
  have size := p.size_encode
  have short := length_le_encodeChain p.final p.chain
  have fixed : (p.start ++ (p.src.bytes ++ p.dst.bytes)).length = 40 := by
    simp only [length_append, length_start, p.src.length_eq, p.dst.length_eq]
  rw [chainBytes] at size
  have enough : p.chain.length < p.encode.size := by omega
  have whole : (encodeChain p.final p.chain).length ≤ p.encode.size - 40 := by omega
  have walks := extensionHeaders_eq ends (p.start ++ (p.src.bytes ++ p.dst.bytes)) p.body
    enough whole
  rw [fixed, append_assoc, append_assoc] at walks
  exact walks

/-- The packet is rewritten. -/
theorem updateIPv6Address_encode (large : 40 < p.encode.size)
    (ends : stop p.chain = none → p.final ≠ 0 ∧ p.final ≠ 43 ∧ p.final ≠ 60 ∧ p.final ≠ 44)
    (src dst : IPv6Addr) (label : Option (AlignedBuffer 4)) :
    p.encode.updateIPv6Address src dst label = .ok (p.readdressed src dst label).encode := by
  have labeled : p.encode.setFlowLabelIf label =
      .ok { p with front := relabel p.front label }.encode := by
    cases label with
    | none => rfl
    | some label => exact p.setFlowLabel_encode label
  -- the packet with the new label and the new addresses
  generalize moved : ({ p with front := relabel p.front label, src := src, dst := dst }) = q
  have chain : q.chain = p.chain ∧ q.final = p.final := by
    rw [← moved]
    exact ⟨rfl, rfl⟩
  rw [updateIPv6Address, if_neg (not_le.mpr large), labeled]
  show (Except.map _ (read _ 8 16) >>= _) = _
  rw [read_src, read_dst, write_src]
  show (write _ 24 dst.bytes >>= _) = _
  rw [write_dst, moved]
  show (byte q.encode 6 >>= _) = _
  rw [byte_next]
  show (extensionHeaders q.encode q.encode.size (firstKind q.final q.chain) 40
    (q.encode.size - 40) >>= _) = _
  rw [q.extensionHeaders_encode (by rwa [chain.1, chain.2])]
  show q.encode.updateIPv6Transport _ (.copy 16 p.src.bytes) (.copy 16 p.dst.bytes) src dst = _
  rw [AlignedBuffer.copy_bytes, AlignedBuffer.copy_bytes, q.updateIPv6Transport_encode, ← moved]
  rfl

end IPv6Packet

end Llarp
