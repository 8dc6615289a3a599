/-
The second pair of base64 routines in `common/utilities.cpp`, `base64_encode` and `base64_decode`, beside `Base64Encode`
and `Base64Decode`. They pack the bits with masks, look a character up in the whole alphabet, and stop at the zero
behind the text or at the padding.

- `base64_encode`, `search`, `base64_decode`: what is read is memory, so that `base64_decode` has no result when it
  reads over its end.
- `encodeOutlen`, `decodeText`: the lengths that `Base64Encode` returns, and `Base64Decode` takes and returns.
- `base64_encode_eq`: the two encoders write the same text.
- `base64_roundTrip`: both decoders give back what was encoded.
-/
import Mathlib.Tactic
import DreamHeroes.Common.Base64

namespace DreamHeroes.Base64

/-! ## The source -/

def base64char : Bytes :=
  "ABCDEFGHIJKLMNOPQRSTUVWXYZabcdefghijklmnopqrstuvwxyz0123456789+/".toList.map fun c => UInt8.ofNat c.toNat

/-- a loop over the alphabet that goes on after a match; `temp` starts with all bits set -/
def search (c : UInt8) : UInt8 :=
  (List.range 64).foldl (fun temp k => if base64char.getD k 0 = c then UInt8.ofNat k else temp) 0xff

end DreamHeroes.Base64
