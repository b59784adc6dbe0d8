import Mathlib.Data.Nat.Bitwise
import NucBios.Lib.Cursor
import NucBios.Uefi.Base

/-!
# CDC-EEM framing: `UsbEemFrameTx` and `UsbEemNextRxFrame`

Every packet on either bulk pipe starts with a two-octet header, least significant octet first: a
data packet carries its length, CRC field included, in the low 14 bits; a command packet has the
top bit set and carries the length of its parameters in the low 11; a header of zero is padding.

* `usbEemFrameTx` wraps a frame. `usbEemNextRxSpan` walks a received transfer, steps over whatever
  is not data and answers with the place of a frame; `usbEemNextRxFrame` has the octets found there.
  The walk is a `Cursor` (`rxCursor`), so a transfer has a list of frames (`framesFrom`).
* `Yields`: the frames some octets contribute to any transfer they stand in, packet by packet
  (`yields_data`, `yields_command`, `yields_padding`) and for packets in a row (`yields_flatMap`).
* `rx_of_packets`: a transfer made of wrapped frames, padding and echo commands in any order gives
  back exactly the frames.
-/

namespace NucBios.Usb

open Lib Uefi

def usbEemHeaderLen : ℕ := 2
def usbEemCrcLen : ℕ := 4
def usbEemMinDataLen : ℕ := 18
def usbEemMaxBulkSize : ℕ := 0x1000

/-- The packet written to `Out`, where `outSize` octets are available. The length counts the CRC
field, which holds the sentinel `0xDEADBEEF`.
Source: `UsbEemFraming.c` `UsbEemFrameTx`
Kind: D -/
def usbEemFrameTx (outSize : ℕ) (eth : List UInt8) : Except EfiStatus (List UInt8) :=
  let len := eth.length + usbEemCrcLen
  if len < usbEemMinDataLen ∨ 0x3FFF < len then
    .error efiInvalidParameter
  else if outSize < usbEemHeaderLen + len then
    .error efiBufferTooSmall
  else
    .ok ([UInt8.ofNat (len &&& 0xFF), UInt8.ofNat (len >>> 8 &&& 0x3F)] ++ eth ++
      [0xDE, 0xAD, 0xBE, 0xEF])

/-- `len` octets from `Buf + off` on. Kind: D -/
def octets (buf : ℕ → UInt8) (off len : ℕ) : List UInt8 :=
  (List.range len).map fun i => buf (off + i)

/-- `Frame`, counted from `Buf`, and `FrameLen`. Kind: D -/
structure RxSpan where
  frame : ℕ
  frameLen : ℕ
  deriving DecidableEq, Repr

/-- The place of the next frame from `offset` on (`none` for `EFI_NOT_FOUND`), and the cursor after
the call.
Source: `UsbEemFraming.c` `UsbEemNextRxFrame`
Kind: D -/
def usbEemNextRxSpan (buf : ℕ → UInt8) (bufLen offset : ℕ) : Option RxSpan × ℕ :=
  if offset + usbEemHeaderLen ≤ bufLen then
    let header := readLe16 buf offset
    if header = 0 then
      -- padding the device appends to force a short packet
      usbEemNextRxSpan buf bufLen (offset + usbEemHeaderLen)
    else if header &&& 0x8000 ≠ 0 then
      -- a command; its parameters are stepped over
      let len := (header &&& 0x7FF).toNat
      if bufLen < offset + usbEemHeaderLen + len then
        (none, bufLen)
      else
        usbEemNextRxSpan buf bufLen (offset + usbEemHeaderLen + len)
    else
      let len := (header &&& 0x3FFF).toNat
      if len ≤ usbEemCrcLen ∨ bufLen < offset + usbEemHeaderLen + len then
        -- framing is lost, the rest of the transfer is abandoned
        (none, bufLen)
      else
        (some ⟨offset + usbEemHeaderLen, len - usbEemCrcLen⟩, offset + usbEemHeaderLen + len)
  else
    (none, bufLen)
termination_by bufLen - offset
decreasing_by all_goals simp only [usbEemHeaderLen] at *; omega

/-- The octets of a frame. Kind: D -/
def RxSpan.octets (buf : ℕ → UInt8) (s : RxSpan) : List UInt8 := Usb.octets buf s.frame s.frameLen

/-- Where the header of the frame starts. Kind: D -/
def RxSpan.header (s : RxSpan) : ℕ := s.frame - usbEemHeaderLen

/-- The end of the CRC field behind the frame. Kind: D -/
def RxSpan.past (s : RxSpan) : ℕ := s.frame + s.frameLen + usbEemCrcLen

/-- The next frame, with the octets found at its place, and the cursor after the call.
Source: `UsbEemFraming.c` `UsbEemNextRxFrame`
Kind: D -/
def usbEemNextRxFrame (buf : ℕ → UInt8) (bufLen offset : ℕ) : Option (List UInt8) × ℕ :=
  let next := usbEemNextRxSpan buf bufLen offset
  (next.1.map (RxSpan.octets buf), next.2)

/-! ### The walk as a cursor -/

lemma next_le (buf : ℕ → UInt8) (bufLen offset : ℕ) :
    (usbEemNextRxSpan buf bufLen offset).2 ≤ bufLen := by
  fun_induction usbEemNextRxSpan buf bufLen offset with
  | case1 _ _ _ _ ih => exact ih
  | case2 => exact le_rfl
  | case3 _ _ _ _ _ _ _ ih => exact ih
  | case4 => exact le_rfl
  | case5 _ _ _ _ _ _ hfits => simp only [not_or, not_lt] at hfits; exact hfits.2
  | case6 => exact le_rfl

/-- A frame has a header before it, behind the cursor, at least one octet, and a CRC field after it,
where the cursor is left. Kind: L -/
theorem span_spec (buf : ℕ → UInt8) (bufLen offset : ℕ) :
    ∀ s, (usbEemNextRxSpan buf bufLen offset).1 = some s →
      offset + usbEemHeaderLen ≤ s.frame ∧ 0 < s.frameLen ∧
        (usbEemNextRxSpan buf bufLen offset).2 = s.past := by
  fun_induction usbEemNextRxSpan buf bufLen offset with
  | case1 _ _ _ _ ih =>
      intro s hs
      obtain ⟨hframe, hrest⟩ := ih s hs
      exact ⟨by omega, hrest⟩
  | case3 _ _ _ _ _ _ _ ih =>
      intro s hs
      obtain ⟨hframe, hrest⟩ := ih s hs
      exact ⟨by omega, hrest⟩
  | case5 offset _ _ _ _ len hgood =>
      intro s hs
      cases hs
      rw [not_or, not_le, not_lt] at hgood
      refine ⟨le_rfl, Nat.sub_pos_of_lt hgood.1, ?_⟩
      rw [RxSpan.past, Nat.add_assoc _ (len - usbEemCrcLen), Nat.sub_add_cancel hgood.1.le]
  | case2 | case4 | case6 =>
      intro s hs
      cases hs

lemma lt_next {buf : ℕ → UInt8} {bufLen offset : ℕ} {s : RxSpan}
    (h : (usbEemNextRxSpan buf bufLen offset).1 = some s) :
    offset < (usbEemNextRxSpan buf bufLen offset).2 := by
  obtain ⟨hframe, hlen, hpast⟩ := span_spec buf bufLen offset s h
  rw [hpast, RxSpan.past]
  omega

lemma stop_of_none (buf : ℕ → UInt8) (bufLen offset : ℕ)
    (h : (usbEemNextRxSpan buf bufLen offset).1 = none) :
    (usbEemNextRxSpan buf bufLen offset).2 = bufLen := by
  fun_induction usbEemNextRxSpan buf bufLen offset with
  | case1 _ _ _ _ ih => exact ih h
  | case2 => rfl
  | case3 _ _ _ _ _ _ _ ih => exact ih h
  | case4 => rfl
  | case5 => cases h
  | case6 => rfl

/-- The walk, with the places of the frames. Kind: D -/
def spanCursor (buf : ℕ → UInt8) (bufLen : ℕ) : Cursor RxSpan where
  stop := bufLen
  next := usbEemNextRxSpan buf bufLen
  next_le := next_le buf bufLen
  lt_next _ _ := lt_next
  stop_of_none := stop_of_none buf bufLen

/-- The walk over a transfer. Kind: D -/
def rxCursor (buf : ℕ → UInt8) (bufLen : ℕ) : Cursor (List UInt8) where
  stop := bufLen
  next := usbEemNextRxFrame buf bufLen
  next_le := next_le buf bufLen
  lt_next _ _ h := by
    obtain ⟨s, hs, -⟩ := Option.map_eq_some_iff.mp h
    exact lt_next hs
  stop_of_none i h := stop_of_none buf bufLen i (Option.map_eq_none_iff.mp h)

/-- The frames of a transfer from a position on. Kind: D -/
def framesFrom (buf : ℕ → UInt8) (bufLen offset : ℕ) : List (List UInt8) :=
  (rxCursor buf bufLen).items offset

/-! ### One packet -/

lemma and_bit15_ne_zero_iff (h : UInt16) : h &&& 0x8000 ≠ 0 ↔ 2 ^ 15 ≤ h.toNat := by
  have hlt := h.toNat_lt
  have hbit : (h &&& 0x8000).toNat = (h.toNat.testBit 15).toNat * 2 ^ 15 := by
    rw [UInt16.toNat_and]
    exact Nat.and_two_pow h.toNat 15
  have hhalf : h.toNat / 2 ^ 15 % 2 = 1 ↔ 2 ^ 15 ≤ h.toNat := by omega
  rw [ne_eq, ← UInt16.toNat_inj, hbit, Nat.testBit_eq_decide_div_mod_eq]
  by_cases hbig : 2 ^ 15 ≤ h.toNat
  · rw [decide_eq_true (hhalf.mpr hbig)]
    exact iff_of_true (by decide) hbig
  · rw [decide_eq_false (mt hhalf.mp hbig)]
    exact iff_of_false (by decide) hbig

/-- A command header is not padding, and its low 11 bits are what is skipped. Kind: L -/
theorem command_header {header : UInt16} {len : ℕ} (h : 2 ^ 15 ≤ header.toNat)
    (hlen : header.toNat % 2048 = len) : header ≠ 0 ∧ (header &&& 0x7FF).toNat = len := by
  refine ⟨?_, ?_⟩
  · intro h0
    rw [h0] at h
    exact absurd h (by decide)
  · rw [UInt16.toNat_and, ← hlen]
    exact Nat.and_two_pow_sub_one_eq_mod _ 11

section Step

variable {buf : ℕ → UInt8} {bufLen offset : ℕ} (hin : offset + usbEemHeaderLen ≤ bufLen)

include hin

lemma next_of_padding (h : (readLe16 buf offset).toNat = 0) :
    usbEemNextRxFrame buf bufLen offset =
      usbEemNextRxFrame buf bufLen (offset + usbEemHeaderLen) := by
  have hzero : readLe16 buf offset = 0 := by
    rw [← UInt16.toNat_inj, h]
    rfl
  rw [usbEemNextRxFrame, usbEemNextRxSpan, if_pos hin]
  simp only [hzero, if_true, usbEemNextRxFrame]

lemma next_of_command {len : ℕ} (h : 2 ^ 15 ≤ (readLe16 buf offset).toNat)
    (hlen : (readLe16 buf offset).toNat % 2048 = len)
    (hfits : offset + usbEemHeaderLen + len ≤ bufLen) :
    usbEemNextRxFrame buf bufLen offset =
      usbEemNextRxFrame buf bufLen (offset + usbEemHeaderLen + len) := by
  obtain ⟨hzero, hparam⟩ := command_header h hlen
  rw [usbEemNextRxFrame, usbEemNextRxSpan, if_pos hin]
  simp only [hzero, if_false, if_pos ((and_bit15_ne_zero_iff _).mpr h), hparam,
    if_neg (not_lt.mpr hfits), usbEemNextRxFrame]

lemma next_of_command_over {len : ℕ} (h : 2 ^ 15 ≤ (readLe16 buf offset).toNat)
    (hlen : (readLe16 buf offset).toNat % 2048 = len)
    (hover : bufLen < offset + usbEemHeaderLen + len) :
    usbEemNextRxFrame buf bufLen offset = (none, bufLen) := by
  obtain ⟨hzero, hparam⟩ := command_header h hlen
  rw [usbEemNextRxFrame, usbEemNextRxSpan, if_pos hin]
  simp only [hzero, if_false, if_pos ((and_bit15_ne_zero_iff _).mpr h), hparam, if_pos hover,
    Option.map_none]

lemma next_of_data {len : ℕ} (h : (readLe16 buf offset).toNat < 2 ^ 15)
    (hlen : (readLe16 buf offset).toNat % 2 ^ 14 = len) (hmin : usbEemCrcLen < len)
    (hfits : offset + usbEemHeaderLen + len ≤ bufLen) :
    usbEemNextRxFrame buf bufLen offset =
      (some (octets buf (offset + usbEemHeaderLen) (len - usbEemCrcLen)),
        offset + usbEemHeaderLen + len) := by
  have hzero : readLe16 buf offset ≠ 0 := by
    intro h0
    rw [h0] at hlen
    rw [← hlen] at hmin
    exact absurd hmin (by decide)
  have hcommand : ¬ (readLe16 buf offset &&& 0x8000 ≠ 0) := by
    rw [and_bit15_ne_zero_iff]
    omega
  have hparam : (readLe16 buf offset &&& 0x3FFF).toNat = len := by
    rw [UInt16.toNat_and, ← hlen]
    exact Nat.and_two_pow_sub_one_eq_mod _ 14
  have hgood : ¬ (len ≤ usbEemCrcLen ∨ bufLen < offset + usbEemHeaderLen + len) := by omega
  rw [usbEemNextRxFrame, usbEemNextRxSpan, if_pos hin]
  simp only [hzero, if_false, if_neg hcommand, hparam, if_neg hgood, Option.map_some,
    RxSpan.octets]

end Step

/-! ### The round trip -/

/-- What may stand in a transfer from a well-behaved peer: a wrapped frame, padding, an Echo or an
Echo Response with its parameters. Kind: D -/
inductive Packet where
  | frame (eth : List UInt8) (outSize : ℕ) (out : List UInt8)
      (accepted : usbEemFrameTx outSize eth = .ok out)
  | padding
  | echo (response : Bool) (parameters : List UInt8) (length_lt : parameters.length < 2 ^ 11)

/-- A header, least significant octet first. Kind: D -/
def headerOctets (header : ℕ) : List UInt8 :=
  [UInt8.ofNat (header % 256), UInt8.ofNat (header / 256)]

/-- The octets of a packet. Kind: D -/
def Packet.encode : Packet → List UInt8
  | .frame _ _ out _ => out
  | .padding => headerOctets 0
  | .echo response parameters _ =>
      headerOctets ((if response then 0x8800 else 0x8000) + parameters.length) ++ parameters

/-- The frame a packet carries. Kind: D -/
def Packet.frame? : Packet → Option (List UInt8)
  | .frame eth _ _ _ => some eth
  | _ => none

lemma headerOctets_toNat {header : ℕ} (h : header < 2 ^ 16) (pre rest : List UInt8) :
    (readLe16 (pointer (pre ++ (headerOctets header ++ rest))) pre.length).toNat = header := by
  rw [readLe16_toNat, pointer_append_of_le le_rfl, pointer_append_of_le (Nat.le_succ _)]
  have h0 : pre.length - pre.length = 0 := by omega
  have h1 : pre.length + 1 - pre.length = 1 := by omega
  rw [h0, h1]
  simp only [pointer, headerOctets, List.cons_append, List.getD_cons_zero, List.getD_cons_succ,
    UInt8.toNat_ofNat']
  omega

lemma octets_pointer (pre l rest : List UInt8) :
    octets (pointer (pre ++ (l ++ rest))) pre.length l.length = l := by
  refine List.ext_getElem (by simp [octets]) fun i hi hi' => ?_
  simp only [octets, List.getElem_map, List.getElem_range]
  rw [pointer_append_of_le (Nat.le_add_right _ _), Nat.add_sub_cancel_left,
    pointer_append_of_lt hi', pointer_of_lt hi']

/-- What an accepted frame is wrapped in. Kind: L -/
theorem usbEemFrameTx_eq_ok {outSize : ℕ} {eth out : List UInt8}
    (h : usbEemFrameTx outSize eth = .ok out) :
    usbEemMinDataLen ≤ eth.length + usbEemCrcLen ∧ eth.length + usbEemCrcLen < 2 ^ 14 ∧
      out = headerOctets (eth.length + usbEemCrcLen) ++ (eth ++ [0xDE, 0xAD, 0xBE, 0xEF]) := by
  unfold usbEemFrameTx at h
  simp only at h
  split_ifs at h with hlen hsize
  rw [not_or, not_lt, not_lt] at hlen
  refine ⟨hlen.1, by omega, ?_⟩
  have hlow : (eth.length + usbEemCrcLen) &&& 0xFF = (eth.length + usbEemCrcLen) % 256 :=
    Nat.and_two_pow_sub_one_eq_mod _ 8
  have hhigh : (eth.length + usbEemCrcLen) >>> 8 &&& 0x3F = (eth.length + usbEemCrcLen) / 256 := by
    rw [Nat.shiftRight_eq_div_pow]
    exact (Nat.and_two_pow_sub_one_eq_mod _ 6).trans (Nat.mod_eq_of_lt (by omega))
  rw [hlow, hhigh] at h
  cases h
  rw [headerOctets, List.append_assoc]

/-- Wherever the octets stand in a transfer, the walk takes the frames from them and goes on behind
them. Kind: D -/
def Yields (octets : List UInt8) (frames : List (List UInt8)) : Prop :=
  ∀ (pre rest : List UInt8) (bufLen : ℕ), (pre ++ (octets ++ rest)).length ≤ bufLen →
    framesFrom (pointer (pre ++ (octets ++ rest))) bufLen pre.length =
      frames ++ framesFrom (pointer (pre ++ (octets ++ rest))) bufLen (pre ++ octets).length

lemma framesFrom_end (buf : ℕ → UInt8) (bufLen : ℕ) : framesFrom buf bufLen bufLen = [] :=
  (rxCursor buf bufLen).items_stop le_rfl

section Yields

variable {octets octets' : List UInt8} {frames frames' : List (List UInt8)}

lemma yields_nil : Yields [] [] := by
  intro pre rest bufLen _
  rw [List.append_nil, List.nil_append, List.nil_append]

/-- Octets that follow each other. Kind: L -/
theorem Yields.append (h : Yields octets frames) (h' : Yields octets' frames') :
    Yields (octets ++ octets') (frames ++ frames') := by
  intro pre rest bufLen hlen
  have hbehind := h' (pre ++ octets) rest bufLen
  rw [List.append_assoc] at hlen
  rw [List.append_assoc, List.append_assoc] at hbehind
  rw [List.append_assoc octets, h pre (octets' ++ rest) bufLen hlen, hbehind hlen,
    List.append_assoc frames]

/-- A transfer of packets, from what each of them yields. Kind: L -/
theorem yields_flatMap {α : Type*} {encode : α → List UInt8} {frame? : α → Option (List UInt8)}
    (h : ∀ a, Yields (encode a) (frame? a).toList) :
    ∀ packets : List α, Yields (packets.flatMap encode) (packets.filterMap frame?)
  | [] => yields_nil
  | p :: packets => by
      have hcons : (p :: packets).filterMap frame? =
          (frame? p).toList ++ packets.filterMap frame? := by
        rw [List.filterMap_cons]
        cases frame? p <;> rfl
      rw [List.flatMap_cons, hcons]
      exact (h p).append (yields_flatMap h packets)

/-- A transfer of nothing else. Kind: L -/
theorem Yields.framesFrom_eq (h : Yields octets frames) :
    framesFrom (pointer octets) octets.length 0 = frames := by
  have hall := h [] [] octets.length
  rw [List.append_nil, List.nil_append, framesFrom_end, List.append_nil] at hall
  exact hall le_rfl

end Yields

/-- Padding is stepped over. Kind: L -/
theorem yields_padding : Yields (headerOctets 0) [] := by
  intro pre rest bufLen hlen
  have htwo : (headerOctets 0).length = usbEemHeaderLen := rfl
  simp only [List.length_append, htwo] at hlen ⊢
  exact (rxCursor _ _).items_congr
    (next_of_padding (by omega) (headerOctets_toNat (by decide) pre rest))

/-- A command is stepped over, with as many octets as its header says. Kind: L -/
theorem yields_command {header : ℕ} {parameters : List UInt8} (hcommand : 2 ^ 15 ≤ header)
    (hword : header < 2 ^ 16) (hparam : header % 2048 = parameters.length) :
    Yields (headerOctets header ++ parameters) [] := by
  intro pre rest bufLen hlen
  have hvalue := headerOctets_toNat hword pre (parameters ++ rest)
  have htwo : (headerOctets header).length = usbEemHeaderLen := rfl
  simp only [List.append_assoc, List.length_append, htwo] at hlen ⊢
  rw [← Nat.add_assoc]
  exact (rxCursor _ _).items_congr
    (next_of_command (by omega) (by rwa [hvalue]) (by rwa [hvalue]) (by omega))

/-- A frame is taken from behind its header, and its CRC field stepped over. Kind: L -/
theorem yields_data {header : ℕ} {eth crc : List UInt8} (hdata : header < 2 ^ 15)
    (hheader : header % 2 ^ 14 = eth.length + usbEemCrcLen) (hpos : 0 < eth.length)
    (hcrc : crc.length = usbEemCrcLen) :
    Yields (headerOctets header ++ (eth ++ crc)) [eth] := by
  intro pre rest bufLen hlen
  have hword : header < 2 ^ 16 := by omega
  have hvalue := headerOctets_toNat hword pre (eth ++ (crc ++ rest))
  have htwo : (headerOctets header).length = usbEemHeaderLen := rfl
  have hframe := octets_pointer (pre ++ headerOctets header) eth (crc ++ rest)
  rw [List.append_assoc, List.length_append, htwo] at hframe
  simp only [List.append_assoc, List.length_append, htwo, hcrc] at hlen ⊢
  have hin : pre.length + usbEemHeaderLen ≤ bufLen := by omega
  have hnext := next_of_data hin (hvalue.trans_lt hdata) (hvalue ▸ hheader) (by omega) (by omega)
  rw [Nat.add_sub_cancel, hframe] at hnext
  refine ((rxCursor _ _).items_of_some (congrArg Prod.fst hnext)).trans ?_
  rw [← Nat.add_assoc]
  exact congrArg (fun i => eth :: (rxCursor _ _).items i) (congrArg Prod.snd hnext)

theorem Packet.yields (p : Packet) : Yields p.encode p.frame?.toList := by
  cases p with
  | padding => exact yields_padding
  | echo response parameters hlt =>
      refine yields_command ?_ ?_ ?_ <;> split_ifs <;> omega
  | frame eth outSize out haccepted =>
      obtain ⟨hmin, hmax, rfl⟩ := usbEemFrameTx_eq_ok haccepted
      simp only [usbEemMinDataLen, usbEemCrcLen] at hmin
      exact yields_data (by omega) (Nat.mod_eq_of_lt hmax) (by omega) rfl

/-- **The codec round trip.** Over a transfer made of wrapped frames, padding and echo commands in
any order, calling `UsbEemNextRxFrame` again and again from offset 0 returns exactly the frames, in
order, and then `EFI_NOT_FOUND` with the cursor at the end of the transfer.
Source: `UsbEemFraming.c` `UsbEemFrameTx`, `UsbEemNextRxFrame`
Kind: P -/
theorem rx_of_packets (packets : List Packet) :
    let buffer := packets.flatMap Packet.encode
    let frames := packets.filterMap Packet.frame?
    (rxCursor (pointer buffer) buffer.length).answers (frames.length + 1) 0 =
      (frames.map some ++ [none], buffer.length) := by
  intro buffer frames
  have hframes : (rxCursor (pointer buffer) buffer.length).items 0 = frames :=
    (yields_flatMap Packet.yields packets).framesFrom_eq
  rw [← hframes]
  exact (rxCursor (pointer buffer) buffer.length).answers_items 0

end NucBios.Usb
