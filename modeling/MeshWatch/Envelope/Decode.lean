import MeshWatch.Envelope.Binary
import MeshWatch.Envelope.Object

/-!
# Reading envelopes

The encoding of a body follows from its topic, and from its first byte where the
topic leaves it open.

- `decode_nil`: an empty body is refused whatever the topic.
-/

namespace MeshWatch.Envelope

/-- Reads the body of a broker message published on a topic. -/
def decode (topic : Topic) (body : Bytes) : Except DecodeFault Envelope :=
  if body.isEmpty then .error (.envelope .emptyPayload)
  else
    match topic.format body with
    | .json => ofObject topic body
    | .binary => ofBinary topic body

theorem decode_nil (topic : Topic) : decode topic [] = .error (.envelope .emptyPayload) := rfl

end MeshWatch.Envelope
