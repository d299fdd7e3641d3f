/-!
# Replies

Operations that fill a buffer of their caller reply with a result and with what
the buffer holds afterwards, whether they succeeded or not.
-/

namespace FlashStorage

structure Reply (ρ : Type) where
  result : ρ
  /-- The caller's buffer after the operation. -/
  buffer : List UInt8
deriving DecidableEq, Repr

end FlashStorage
