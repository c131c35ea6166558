import MiniPgw.Lib.Framing
import MiniPgw.Common

/-!
# The TCP protocol and its codec

`pgw/common/protocol.h`, and `serializer` and `deserializer` of `TcpSerializer`. A message is a
packed 7-byte header and its data; the header ends with the little-endian length of the data.

`deserializer` finds a message exactly when the bytes of a well-formed one stand at the front of
the buffer (`deserializer_eq_some`), so the two functions are a `Framing`.
-/

namespace Pgw
namespace Protocol

/-- The only version that `deserializer` accepts. -/
def PROTOCOL_VERSION : UInt8 := 0x01

/-- `enum class Command : uint8_t`: a command read from a buffer may be any byte. -/
structure Command where
  code : UInt8
  deriving DecidableEq, Repr

namespace Command

def GET_STATS : Command := ⟨0x01⟩
def GET_SESSIONS : Command := ⟨0x02⟩
def GET_CDR : Command := ⟨0x03⟩
def START_SESSION : Command := ⟨0x04⟩
def STOP_SESSION : Command := ⟨0x05⟩
def SHUTDOWN : Command := ⟨0x06⟩

end Command

/-- `enum class Status : uint8_t` -/
structure Status where
  code : UInt8
  deriving DecidableEq, Repr

namespace Status

def OK : Status := ⟨0x01⟩
def ERROR : Status := ⟨0x02⟩
def INVALID_COMMAND : Status := ⟨0x03⟩
def INVALID_PARAMS : Status := ⟨0x04⟩
def NOT_FOUND : Status := ⟨0x05⟩

end Status

/-- The header, as it lies in memory. -/
structure MessageHeader where
  version : UInt8
  command : Command
  status : Status
  length : UInt32
  deriving DecidableEq, Repr

/-- `sizeof(MessageHeader)`, which is packed. -/
def headerSize : Nat := 7

/-- A request or a reply. -/
structure Message where
  header : MessageHeader
  data : Bytes
  deriving DecidableEq, Repr

/-- The header announces this version and the length of the data. -/
def Message.WellFormed (m : Message) : Prop :=
  m.header.version = PROTOCOL_VERSION ∧ m.header.length.toNat = m.data.length

end Protocol

namespace TcpSerializer

open Protocol

/-- The bytes of a `uint32_t` on a little-endian host. -/
def lengthBytes (n : UInt32) : Bytes :=
  [UInt8.ofNat n.toNat, UInt8.ofNat (n.toNat / 256), UInt8.ofNat (n.toNat / 65536),
    UInt8.ofNat (n.toNat / 16777216)]

/-- The `uint32_t` with these bytes. -/
def lengthOf (b₀ b₁ b₂ b₃ : UInt8) : UInt32 :=
  UInt32.ofNat (b₀.toNat + 256 * b₁.toNat + 65536 * b₂.toNat + 16777216 * b₃.toNat)

/-- Four bytes are the bytes of the number that they make, -/
theorem lengthBytes_lengthOf (b₀ b₁ b₂ b₃ : UInt8) :
    lengthBytes (lengthOf b₀ b₁ b₂ b₃) = [b₀, b₁, b₂, b₃] := by
  have h₀ := b₀.toNat_lt
  have h₁ := b₁.toNat_lt
  have h₂ := b₂.toNat_lt
  have h₃ := b₃.toNat_lt
  have hsum : (lengthOf b₀ b₁ b₂ b₃).toNat
      = b₀.toNat + 256 * b₁.toNat + 65536 * b₂.toNat + 16777216 * b₃.toNat := by
    rw [lengthOf, UInt32.toNat_ofNat']
    omega
  simp only [lengthBytes, hsum, List.cons.injEq, ← UInt8.toNat_inj, UInt8.toNat_ofNat', and_true]
  omega

/-- and a number is made of its own bytes. -/
theorem lengthOf_lengthBytes (n : UInt32) :
    lengthOf (UInt8.ofNat n.toNat) (UInt8.ofNat (n.toNat / 256)) (UInt8.ofNat (n.toNat / 65536))
      (UInt8.ofNat (n.toNat / 16777216)) = n := by
  have hn := n.toNat_lt
  rw [lengthOf, ← UInt32.toNat_inj, UInt32.toNat_ofNat']
  simp only [UInt8.toNat_ofNat']
  omega

/-- The bytes of the header in memory. -/
def headerBytes (h : MessageHeader) : Bytes :=
  [h.version, h.command.code, h.status.code] ++ lengthBytes h.length

/-- `TcpSerializer::serializer`: the header is copied as it lies in memory, and the data follows it.
-/
def serializer (msg : Message) : Bytes :=
  headerBytes msg.header ++ msg.data

/-- `TcpSerializer::deserializer`: a message at the front of the buffer, if it has this version and
is there to its end. -/
def deserializer (buffer : Bytes) : Option Message :=
  match buffer with
  | version :: command :: status :: b₀ :: b₁ :: b₂ :: b₃ :: payload =>
    let header : MessageHeader := ⟨version, ⟨command⟩, ⟨status⟩, lengthOf b₀ b₁ b₂ b₃⟩
    if header.version ≠ PROTOCOL_VERSION then none
    else if buffer.length < headerSize + header.length.toNat then none
    else some ⟨header, payload.take header.length.toNat⟩
  -- `buffer.size() < sizeof(MessageHeader)`
  | _ => none

/-- The header is packed: it has 7 bytes. -/
@[simp] theorem length_headerBytes (h : MessageHeader) : (headerBytes h).length = headerSize := rfl

/-- A message takes as many bytes as its header and its data. -/
theorem length_serializer (msg : Message) :
    (serializer msg).length = headerSize + msg.data.length := by
  rw [serializer, List.length_append, length_headerBytes]

/-- What `handleClientData` erases for a well-formed message are the bytes of that message. -/
theorem length_serializer_of_wellFormed {msg : Message} (h : msg.WellFormed) :
    (serializer msg).length = headerSize + msg.header.length.toNat := by
  rw [length_serializer, h.2]

/-- **`deserializer` finds exactly the well-formed messages at the front of the buffer.** -/
theorem deserializer_eq_some (buffer : Bytes) (msg : Message) :
    deserializer buffer = some msg ↔ msg.WellFormed ∧ serializer msg <+: buffer := by
  constructor
  · intro h
    unfold deserializer at h
    split at h
    · next version command status b₀ b₁ b₂ b₃ payload =>
      dsimp only at h
      split_ifs at h with hversion hlength
      obtain rfl := Option.some.inj h
      -- the length in the header fits into the buffer
      have hpayload : (lengthOf b₀ b₁ b₂ b₃).toNat ≤ payload.length := by
        simp [headerSize] at hlength
        omega
      refine ⟨⟨by simpa using hversion, by simp [hpayload]⟩, ?_⟩
      refine ⟨payload.drop (lengthOf b₀ b₁ b₂ b₃).toNat, ?_⟩
      simp [serializer, headerBytes, lengthBytes_lengthOf, List.take_append_drop]
    · cases h
  · rintro ⟨⟨hversion, hlength⟩, rest, rfl⟩
    obtain ⟨⟨version, ⟨command⟩, ⟨status⟩, length⟩, data⟩ := msg
    simp only at hversion hlength
    subst hversion
    simp only [serializer, headerBytes, lengthBytes, List.cons_append, List.nil_append,
      deserializer, lengthOf_lengthBytes]
    simp [headerSize, hlength]
    omega

/-- The messages in a TCP stream. -/
def framing : Framing UInt8 Message where
  frame := serializer
  WellFormed := Message.WellFormed
  decode := deserializer
  frame_ne_nil := fun _ => List.cons_ne_nil _ _
  decode_eq_some := deserializer_eq_some

/-- A buffer without a complete message can still become one exactly when it is a strict prefix of
the bytes of a well-formed message. -/
theorem completable_iff {buffer : Bytes} (hnone : deserializer buffer = none) :
    (∃ c, deserializer (buffer ++ c) ≠ none) ↔
      ∃ msg : Message, msg.WellFormed ∧ buffer <+: serializer msg ∧ buffer ≠ serializer msg := by
  constructor
  · rintro ⟨c, hc⟩
    obtain ⟨msg, hmsg⟩ := Option.ne_none_iff_exists'.mp hc
    obtain ⟨hwf, hpre⟩ := (deserializer_eq_some _ _).mp hmsg
    have hlt : ¬ serializer msg <+: buffer := fun h => by
      rw [(deserializer_eq_some _ _).mpr ⟨hwf, h⟩] at hnone
      cases hnone
    refine ⟨msg, hwf, ?_, fun heq => hlt (heq ▸ List.prefix_refl _)⟩
    rcases List.prefix_or_prefix_of_prefix hpre (List.prefix_append buffer c) with h | h
    · exact absurd h hlt
    · exact h
  · rintro ⟨msg, hwf, ⟨c, hc⟩, -⟩
    refine ⟨c, ?_⟩
    rw [hc, (deserializer_eq_some _ _).mpr ⟨hwf, List.prefix_refl _⟩]
    exact Option.some_ne_none msg

/-- The length field is little-endian. -/
theorem toNat_eq_lengthBytes (n : UInt32) : ∃ b₀ b₁ b₂ b₃ : UInt8,
    lengthBytes n = [b₀, b₁, b₂, b₃] ∧
      n.toNat = b₀.toNat + 256 * b₁.toNat + 65536 * b₂.toNat + 16777216 * b₃.toNat := by
  refine ⟨_, _, _, _, rfl, ?_⟩
  have hn := n.toNat_lt
  simp only [UInt8.toNat_ofNat']
  omega

/-- **The codec is a prefix-free bijection onto its image.** A well-formed message is decoded from
its bytes, whatever follows them; a decoded message stands in the buffer as its bytes, which are as
many as `handleClientData` erases; and a strict prefix of its bytes is not decoded. The bytes are a
packed header of 7 bytes, with a little-endian length, and the data. -/
theorem serializer_deserializer :
    (∀ m : Message, m.WellFormed → ∀ t, deserializer (serializer m ++ t) = some m) ∧
      (∀ b m, deserializer b = some m →
        serializer m = b.take (headerSize + m.header.length.toNat) ∧
          m.data.length = m.header.length.toNat) ∧
      (∀ m : Message, m.WellFormed → ∀ b, b <+: serializer m → b ≠ serializer m →
        deserializer b = none) ∧
      ∀ m : Message, ∃ b₀ b₁ b₂ b₃ : UInt8,
        serializer m = [m.header.version, m.header.command.code, m.header.status.code,
          b₀, b₁, b₂, b₃] ++ m.data ∧
        m.header.length.toNat
          = b₀.toNat + 256 * b₁.toNat + 65536 * b₂.toNat + 16777216 * b₃.toNat := by
  refine ⟨fun m hm t => framing.decode_frame_append hm t, fun b m hdecode => ?_,
    fun m hm b hpre hne => framing.decode_strict_prefix hm hpre hne, fun m => ?_⟩
  · -- what is decoded stands at the front of the buffer, and its length is that of its bytes
    obtain ⟨hwf, hpre⟩ := (deserializer_eq_some b m).mp hdecode
    refine ⟨?_, hwf.2.symm⟩
    rw [← length_serializer_of_wellFormed hwf]
    exact List.prefix_iff_eq_take.mp hpre
  · obtain ⟨b₀, b₁, b₂, b₃, hbytes, hlength⟩ := toNat_eq_lengthBytes m.header.length
    refine ⟨b₀, b₁, b₂, b₃, ?_, hlength⟩
    rw [serializer, headerBytes, hbytes]
    rfl

end TcpSerializer
end Pgw
