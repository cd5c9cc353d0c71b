/-
Interpose.Digest.Hmac — a digest that only the holder of a key can make.
-/
import Interpose.Digest.Sha256

namespace Interpose.Digest

/-- A key brought to the length of a block: noughts follow a shorter one, and
a longer one is digested first. -/
def blockKey (key : List UInt8) : List UInt8 :=
  let k := if 64 < key.length then sha256 key else key
  k ++ List.replicate (64 - k.length) 0

/-- The tag of a message under a key: the message is digested twice, each
time behind another form of the key. -/
def hmac (key message : List UInt8) : List UInt8 :=
  let k := blockKey key
  sha256 (k.map (· ^^^ 0x5c) ++ sha256 (k.map (· ^^^ 0x36) ++ message))

end Interpose.Digest
