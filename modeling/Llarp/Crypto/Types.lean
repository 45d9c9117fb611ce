import Llarp.Foundation.Bytes

/-!
# Keys, hashes and nonces
-/

namespace Llarp

open Foundation

abbrev ShortHash := AlignedBuffer 32
abbrev PubKey := AlignedBuffer 32
abbrev SharedSecret := AlignedBuffer 32
abbrev KeyExchangeNonce := AlignedBuffer 32
abbrev TunnelNonce := AlignedBuffer 32
abbrev Signature := AlignedBuffer 64

/-- A ciphertext of the post-quantum key exchange, with one more byte. -/
abbrev PQCipherBlock := AlignedBuffer 1048

/-- The key of a router. -/
abbrev RouterID := AlignedBuffer 32

/-- The identifier of a path at one of its hops. -/
abbrev PathID := AlignedBuffer 16

instance : Std.TransOrd RouterID := inferInstance

instance : Std.TransOrd PathID := inferInstance

end Llarp
