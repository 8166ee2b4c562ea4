import MeshWatch.Cipher.ChannelKey
import MeshWatch.Text.Utf8

/-!
# Why a message is refused

Every way in which a broker message can fail to become a packet, as a cause. The
wording is one function per family; what a format's grammar objects to is given by
the format's name in angle brackets.

- `DecodeFault.kind`: a short label for each family of causes.
-/

namespace MeshWatch

/-- Formats whose grammar a body can violate. -/
inductive Grammar where
  | json
  | protobuf
  | toml
deriving DecidableEq, Repr

/-- The stand-in for the objections of a grammar. -/
def Grammar.objection : Grammar → String
  | .json => "<json>"
  | .protobuf => "<protobuf>"
  | .toml => "<toml>"

/-- What is wrong with a topic. -/
inductive TopicFault where
  | empty
  | control
  | wildcard
  | tooFewSegments
  | emptySegment
  | missingChannel
  | unrecognised
  | noPackets
deriving DecidableEq, Repr

def TopicFault.reason : TopicFault → String
  | .empty => "empty topic"
  | .control => "control characters"
  | .wildcard => "wildcard characters"
  | .tooFewSegments => "too few segments"
  | .emptySegment => "empty segment"
  | .missingChannel => "missing channel segment"
  | .unrecognised => "unrecognised layout"
  | .noPackets => "topic carries no mesh packets"

/-- What is wrong with an envelope. -/
inductive EnvelopeFault where
  | emptyPayload
  | syntactic (g : Grammar)
  | notAnObject
  | missingSender
  | noPacket
  | payloadShape
deriving DecidableEq, Repr

def EnvelopeFault.reason : EnvelopeFault → String
  | .emptyPayload => "empty payload"
  | .syntactic g => g.objection
  | .notAnObject => "envelope is not an object"
  | .missingSender => "missing sender"
  | .noPacket => "envelope has no packet"
  | .payloadShape => "payload is neither an object nor a string"

/-- What is wrong with a decrypted body. -/
inductive DecryptFault where
  | cipher (fault : CryptoFault)
  | notData
  | noPort
deriving DecidableEq, Repr

def DecryptFault.reason : DecryptFault → String
  | .cipher fault => fault.message
  | .notData => "plaintext is not a Data message: " ++ Grammar.protobuf.objection
  | .noPort => "plaintext has no port"

/-- What is wrong with the body of an application port. -/
inductive PayloadFault where
  | text (fault : Text.Utf8Fault)
  | wire
  | missingText
deriving DecidableEq, Repr

def PayloadFault.reason : PayloadFault → String
  | .text fault => fault.message
  | .wire => Grammar.protobuf.objection
  | .missingText => "missing text"

/-- Why a broker message did not become a packet. -/
inductive DecodeFault where
  | topic (topic : String) (fault : TopicFault)
  | envelope (fault : EnvelopeFault)
  | decrypt (fault : DecryptFault)
  | unavailable (what : String)
  | payload (portName : String) (fault : PayloadFault)
deriving DecidableEq, Repr

namespace DecodeFault

/-- The label of the family. -/
def kind : DecodeFault → String
  | .topic .. => "topic"
  | .envelope _ => "envelope"
  | .decrypt _ => "decrypt"
  | .unavailable _ => "unavailable"
  | .payload .. => "payload"

/-- The wording of a cause. -/
def message : DecodeFault → String
  | .topic t fault => "malformed topic " ++ Text.quoted t ++ ": " ++ fault.reason
  | .envelope fault => "malformed packet: " ++ fault.reason
  | .decrypt fault => "decryption failed: " ++ fault.reason
  | .unavailable what => what ++ " support not available in this build"
  | .payload port fault => "invalid " ++ port ++ " payload: " ++ fault.reason

/-- A cipher that is missing altogether is not a failed decryption. -/
def ofCrypto : CryptoFault → DecodeFault
  | .notAvailable => .unavailable "crypto"
  | fault => .decrypt (.cipher fault)

end DecodeFault

/-- Why a stored snapshot cannot be read. -/
inductive SnapshotFault where
  | missing
  | unreadable
  | format
deriving DecidableEq, Repr

def SnapshotFault.message : SnapshotFault → String
  | .missing => "IO error: <io>"
  | .unreadable => "IO error: <io>"
  | .format => "snapshot format error: " ++ Grammar.json.objection

end MeshWatch
