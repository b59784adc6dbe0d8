import NucBios.Usb.EemReceive

/-!
# `UsbEthEemTransmit`: one frame, one bulk transfer

The frame is wrapped and handed to `UsbBulkTransfer` as it is. A peer that reads whole transfers
sees one end at the first packet shorter than the endpoint's maximum; a transfer that is a multiple
of the maximum has none, unless a zero-length packet or a padding header follows it. The device pads
its transfers that way; this driver adds nothing.

* `usbEthEemTransmit_transfer`: which frames are sent, and what is handed over.
* `transmit_ends_short_iff`: a transfer ends in a short packet unless the length of the frame is six
  octets below a multiple of the packet size.
-/

namespace NucBios.Usb

open Uefi

/-- One call: the frame, and the answers it meets. Kind: D -/
structure TransmitCall where
  /-- The `*PacketLength` octets at `Packet`. -/
  packet : List UInt8
  interface : Except EfiStatus InterfaceDescriptor
  endpoint : ℕ → Except EfiStatus EndpointDescriptor
  bulkStatus : EfiStatus

/-- `GetEndpoint` reads the descriptors and nothing else of a call. Kind: D -/
def TransmitCall.descriptors (c : TransmitCall) : ReceiveCall where
  packetLength := 0
  interface := c.interface
  endpoint := c.endpoint
  bulk := ⟨c.bulkStatus, [], Nat.zero_le _⟩

/-- What `UsbBulkTransfer` is given. Kind: D -/
structure BulkOut where
  endpoint : UInt8
  data : List UInt8

/-- What a call did. Kind: D -/
structure Transmitted where
  driver : EemDriver
  transfer : Option BulkOut
  status : EfiStatus

/-- Source: `UsbEemFunction.c` `UsbEthEemTransmit`
Kind: D -/
def usbEthEemTransmit (d : EemDriver) (c : TransmitCall) : Transmitted :=
  let d := if d.bulkOutEndpoint = 0 then getEndpoint c.descriptors d else d
  match usbEemFrameTx usbEemMaxBulkSize c.packet with
  | .error status => ⟨d, none, status⟩
  | .ok wrapped => ⟨d, some ⟨d.bulkOutEndpoint, wrapped⟩, c.bulkStatus⟩

/-- The endpoint a call sends to. Kind: D -/
def TransmitCall.bulkOut (c : TransmitCall) (d : EemDriver) : UInt8 :=
  if d.bulkOutEndpoint = 0 then (getEndpoint c.descriptors d).bulkOutEndpoint else d.bulkOutEndpoint

/-- The limits the frame is checked against come down to two. Kind: L -/
theorem usbEemFrameTx_isOk_iff (eth : List UInt8) :
    (∃ out, usbEemFrameTx usbEemMaxBulkSize eth = .ok out) ↔
      14 ≤ eth.length ∧ eth.length ≤ 4090 := by
  have hmin : usbEemMinDataLen = 14 + usbEemCrcLen := rfl
  have hbulk : usbEemMaxBulkSize = usbEemHeaderLen + (4090 + usbEemCrcLen) := rfl
  have hcrc : usbEemCrcLen = 4 := rfl
  unfold usbEemFrameTx
  by_cases hlen : eth.length + usbEemCrcLen < usbEemMinDataLen ∨ 0x3FFF < eth.length + usbEemCrcLen
  · simp only [if_pos hlen, reduceCtorEq, exists_false, false_iff]
    omega
  · by_cases hsize : usbEemMaxBulkSize < usbEemHeaderLen + (eth.length + usbEemCrcLen)
    · simp only [if_neg hlen, if_pos hsize, reduceCtorEq, exists_false, false_iff]
      omega
    · simp only [if_neg hlen, if_neg hsize, Except.ok.injEq, exists_eq', true_iff]
      omega

/-- A frame of 14 to 4090 octets is sent, wrapped; no other is. Kind: L -/
theorem usbEthEemTransmit_transfer (d : EemDriver) (c : TransmitCall) :
    (usbEthEemTransmit d c).transfer =
      if 14 ≤ c.packet.length ∧ c.packet.length ≤ 4090 then
        some ⟨c.bulkOut d, headerOctets (c.packet.length + usbEemCrcLen) ++
          (c.packet ++ [0xDE, 0xAD, 0xBE, 0xEF])⟩
      else none := by
  have hiff := usbEemFrameTx_isOk_iff c.packet
  unfold usbEthEemTransmit
  rcases h : usbEemFrameTx usbEemMaxBulkSize c.packet with status | out
  · have hlen : ¬ (14 ≤ c.packet.length ∧ c.packet.length ≤ 4090) := by
      intro hlen
      obtain ⟨out, hout⟩ := hiff.mpr hlen
      rw [h] at hout
      cases hout
    rw [if_neg hlen]
  · rw [if_pos (hiff.mp ⟨out, h⟩), ← (usbEemFrameTx_eq_ok h).2.2]
    simp only [TransmitCall.bulkOut, apply_ite EemDriver.bulkOutEndpoint]

/-- **When a transfer ends in a short packet.** What is handed to `UsbBulkTransfer` is the frame and
six octets. For every packet size of a bulk endpoint it falls short of a multiple, unless the frame
is six octets below one.
Source: `UsbEemFunction.c` `UsbEthEemTransmit`
Kind: P -/
theorem transmit_ends_short_iff (d : EemDriver) (c : TransmitCall) (out : BulkOut)
    (hout : (usbEthEemTransmit d c).transfer = some out) (maxPacketSize : ℕ)
    (hsize : maxPacketSize ∈ [8, 16, 32, 64, 512, 1024]) :
    out.data.length = c.packet.length + 6 ∧
      (¬ maxPacketSize ∣ out.data.length ↔
        c.packet.length % maxPacketSize ≠ maxPacketSize - 6) := by
  rw [usbEthEemTransmit_transfer] at hout
  split_ifs at hout
  cases hout
  have hlength : (headerOctets (c.packet.length + usbEemCrcLen) ++
      (c.packet ++ [0xDE, 0xAD, 0xBE, 0xEF])).length = c.packet.length + 6 := by
    simp only [headerOctets, List.length_append, List.length_cons, List.length_nil]
    omega
  refine ⟨hlength, ?_⟩
  rw [hlength]
  simp only [List.mem_cons, List.not_mem_nil, or_false] at hsize
  rcases hsize with rfl | rfl | rfl | rfl | rfl | rfl <;> omega

/-- A driver with its endpoints, asked to send `length` zeros. Kind: D -/
def sentZeros (length : ℕ) : Transmitted :=
  usbEthEemTransmit (.started 0x81 0x01 fun _ => 0)
    ⟨List.replicate length 0, .error efiDeviceError, fun _ => .error efiDeviceError, efiSuccess⟩

lemma sentZeros_transfer {length : ℕ} (h : 14 ≤ length ∧ length ≤ 4090) :
    (sentZeros length).transfer = some ⟨0x01, headerOctets (length + usbEemCrcLen) ++
      (List.replicate length 0 ++ [0xDE, 0xAD, 0xBE, 0xEF])⟩ := by
  refine (usbEthEemTransmit_transfer _ _).trans ?_
  rw [List.length_replicate, if_pos h]
  rfl

/-- The 60 octets of a minimal frame, over packets of 64. Kind: C -/
theorem transmit_ends_short_minimal_frame :
    ∃ out, (sentZeros 60).transfer = some out ∧ 64 ∈ [8, 16, 32, 64, 512, 1024] ∧
      out.data.length = (List.replicate 60 (0 : UInt8)).length + 6 ∧
      (¬ 64 ∣ out.data.length ↔ (List.replicate 60 (0 : UInt8)).length % 64 ≠ 64 - 6) :=
  ⟨_, sentZeros_transfer (by decide), by decide,
    transmit_ends_short_iff _ _ _ (sentZeros_transfer (by decide)) 64 (by decide)⟩

/-- Frames of 58 and of 506 octets fill their last packet, at full and at high speed. Kind: C -/
theorem transmit_fills_last_packet :
    (∃ out, (sentZeros 58).transfer = some out ∧ 64 ∣ out.data.length) ∧
      ∃ out, (sentZeros 506).transfer = some out ∧ 512 ∣ out.data.length := by
  refine ⟨⟨_, sentZeros_transfer (by decide), ?_⟩, ⟨_, sentZeros_transfer (by decide), ?_⟩⟩
  · simp only [headerOctets, List.length_append, List.length_replicate, List.length_cons,
      List.length_nil]
    decide
  · simp only [headerOctets, List.length_append, List.length_replicate, List.length_cons,
      List.length_nil]
    decide

end NucBios.Usb
