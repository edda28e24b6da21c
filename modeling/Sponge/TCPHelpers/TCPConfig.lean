import Sponge.WrappingIntegers

/-!
# The configuration of a TCP endpoint

The constants of `TCPConfig` and the record of the values that a connection is
constructed from.
-/

namespace Sponge

/-- The configuration of the sender and the receiver. -/
structure TCPConfig where
  rtTimeout : UInt16 := 1000
  recvCapacity : ℕ := 64000
  sendCapacity : ℕ := 64000
  fixedIsn : Option WrappingInt32 := none

namespace TCPConfig

/-- The largest payload of a segment. -/
def maxPayloadSize : ℕ := 1452

/-- The number of consecutive retransmissions after which a connection is
given up. -/
def maxRetxAttempts : ℕ := 8

end TCPConfig

end Sponge
