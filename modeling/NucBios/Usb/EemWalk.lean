import NucBios.Usb.EemReceive

/-!
# The walk over transfers nobody promises anything about

`UsbEemNextRxFrame` points into the transfer: it answers with the place of a frame and its length.
This module follows the places (`spanCursor`).

* `rx_walk_bounded`: over any octets, from any position, the frames stand one behind the other
  inside the transfer, and their number is at most a seventh of its length.
* `hint_transparent_iff`: a command packet consists of its header alone unless it is an Echo, yet
  the low 11 bits of every command are taken for a number of octets to skip. A hint goes unnoticed
  between the packets of every transfer exactly when these bits are zero.
-/

namespace NucBios.Usb

open Lib Uefi

/-! ### The places of frames -/

lemma le_header (buf : ℕ → UInt8) (bufLen i : ℕ) (s : RxSpan)
    (hs : (usbEemNextRxSpan buf bufLen i).1 = some s) : i ≤ s.header :=
  Nat.le_sub_of_add_le (span_spec buf bufLen i s hs).1

lemma header_add_le_past (buf : ℕ → UInt8) (bufLen i : ℕ) (s : RxSpan)
    (hs : (usbEemNextRxSpan buf bufLen i).1 = some s) :
    s.header + (usbEemHeaderLen + 1 + usbEemCrcLen) ≤ s.past := by
  obtain ⟨hframe, hlen, -⟩ := span_spec buf bufLen i s hs
  rw [RxSpan.header, RxSpan.past]
  omega

lemma next_eq_past (buf : ℕ → UInt8) (bufLen i : ℕ) (s : RxSpan)
    (hs : (usbEemNextRxSpan buf bufLen i).1 = some s) :
    (usbEemNextRxSpan buf bufLen i).2 = s.past :=
  (span_spec buf bufLen i s hs).2.2

/-- A frame takes up its header, its octets and its CRC field. Kind: D -/
def spanFootprint (buf : ℕ → UInt8) (bufLen : ℕ) : (spanCursor buf bufLen).Footprint where
  lo := RxSpan.header
  hi := RxSpan.past
  width := usbEemHeaderLen + 1 + usbEemCrcLen
  le_lo := le_header buf bufLen
  room := header_add_le_past buf bufLen
  next_eq := next_eq_past buf bufLen

/-- The frames of a transfer are those at the places of the walk. Kind: L -/
theorem framesFrom_eq_spans (buf : ℕ → UInt8) (bufLen offset : ℕ) :
    framesFrom buf bufLen offset =
      ((spanCursor buf bufLen).items offset).map (RxSpan.octets buf) := by
  induction offset using (spanCursor buf bufLen).walk_induction with
  | stop i h =>
      rw [(spanCursor buf bufLen).items_of_none h]
      exact (rxCursor buf bufLen).items_of_none (congrArg (Option.map (RxSpan.octets buf)) h)
  | step i s h ih =>
      rw [(spanCursor buf bufLen).items_of_some h, List.map_cons, ← ih]
      exact (rxCursor buf bufLen).items_of_some (congrArg (Option.map (RxSpan.octets buf)) h)

/-! ### Hostile transfers -/

/-- What calling `UsbEemNextRxFrame` until `EFI_NOT_FOUND` comes to, when it finds `spans`.
Kind: D -/
structure BoundedWalk (buf : ℕ → UInt8) (bufLen start : ℕ) (spans : List RxSpan) : Prop where
  /-- The calls, each with the cursor it leaves. -/
  calls_eq : (spanCursor buf bufLen).calls (spans.length + 1) start =
    spans.map (fun s => (some s, s.past)) ++ [(none, bufLen)]
  calls_le : spans.length + 1 ≤ bufLen / 7 + 1
  /-- Header, frame and CRC field are in the transfer, behind the first cursor. -/
  within : ∀ s ∈ spans, start ≤ s.header ∧ s.header + 2 = s.frame ∧ 1 ≤ s.frameLen ∧
    s.frame + s.frameLen + 4 = s.past ∧ s.past ≤ bufLen
  disjoint : spans.Pairwise fun s t => s.past ≤ t.header
  cursor_monotone :
    (start :: ((spanCursor buf bufLen).calls (spans.length + 1) start).map
      Prod.snd).Pairwise (· ≤ ·)
  cursor_le : ∀ call ∈ (spanCursor buf bufLen).calls (spans.length + 1) start, call.2 ≤ bufLen

lemma span_of_mem_items {buf : ℕ → UInt8} {bufLen start : ℕ} {s : RxSpan}
    (hs : s ∈ (spanCursor buf bufLen).items start) :
    usbEemHeaderLen ≤ s.frame ∧ 0 < s.frameLen := by
  induction start using (spanCursor buf bufLen).walk_induction with
  | stop i h =>
      rw [(spanCursor buf bufLen).items_of_none h] at hs
      cases hs
  | step i t h ih =>
      rw [(spanCursor buf bufLen).items_of_some h, List.mem_cons] at hs
      rcases hs with rfl | hs
      · obtain ⟨hframe, hlen, -⟩ := span_spec buf bufLen i s h
        exact ⟨by omega, hlen⟩
      · exact ih hs

/-- **The walk is safe on any octets.** Calling `UsbEemNextRxFrame` again and again, from any cursor
within the transfer, ends with `EFI_NOT_FOUND` and the cursor at the end, after at most a seventh of
the transfer's length of calls and one. Every frame has an octet at least; with its header and its
CRC field it stands inside the transfer and behind the frames before it. The cursor never goes back.
Source: `UsbEemFraming.c` `UsbEemNextRxFrame`
Kind: P -/
theorem rx_walk_bounded (buf : ℕ → UInt8) (bufLen start : ℕ) (hstart : start ≤ bufLen) :
    ∃ spans, BoundedWalk buf bufLen start spans := by
  set f := spanFootprint buf bufLen
  set spans := (spanCursor buf bufLen).items start
  refine ⟨spans, f.calls_items start, ?_, ?_, f.pairwise start, ?_, ?_⟩
  · have hroom : 7 * spans.length ≤ bufLen - start := f.length_items_le start hstart
    omega
  · intro s hs
    obtain ⟨hlo, -, hhi⟩ := f.within start s hs
    obtain ⟨hframe, hlen⟩ := span_of_mem_items hs
    exact ⟨hlo, Nat.sub_add_cancel hframe, hlen, rfl, hhi⟩
  · exact (spanCursor buf bufLen).calls_monotone _ hstart
  · exact fun call hcall => ((spanCursor buf bufLen).calls_within _ hstart call hcall).2

/-- A command that reaches past the end, behind a frame of one octet. Kind: C -/
theorem rx_walk_bounded_cut_command :
    (0 : ℕ) ≤ 9 ∧ ∃ spans,
      BoundedWalk (pointer [0x05, 0x00, 0xAA, 0xDE, 0xAD, 0xBE, 0xEF, 0xFF, 0xFF]) 9 0 spans :=
  ⟨by decide, rx_walk_bounded _ 9 0 (by decide)⟩

/-! ### Hints -/

/-- What data travels in: a data packet with a CRC or the sentinel behind its frame, or padding.
Source: `UsbEemFraming.h`, the comment on the wire format
Kind: D -/
inductive DataPacket where
  | data (bmCrc : Bool) (eth crc : List UInt8) (nonempty : 0 < eth.length)
      (crc_length : crc.length = usbEemCrcLen) (length_lt : eth.length + usbEemCrcLen < 2 ^ 14)
  | padding

/-- The octets of a packet. Kind: D -/
def DataPacket.encode : DataPacket → List UInt8
  | .data bmCrc eth crc _ _ _ =>
      headerOctets ((if bmCrc then 2 ^ 14 else 0) + (eth.length + usbEemCrcLen)) ++ (eth ++ crc)
  | .padding => headerOctets 0

/-- The frame a packet carries. Kind: D -/
def DataPacket.frame? : DataPacket → Option (List UInt8)
  | .data _ eth _ _ _ _ => some eth
  | .padding => none

/-- A command header whose `bmEEMCmd`, bits 13:11, is one of the hints: Suspend, Response, Response
Complete or Tickle. Bit 14 is reserved and may be anything.
Source: `UsbEemFraming.h`, the comment on the wire format
Kind: D -/
structure Hint where
  header : UInt16
  bmType : 2 ^ 15 ≤ header.toNat
  bmEemCmd : 2 ≤ header.toNat / 2 ^ 11 % 2 ^ 3 ∧ header.toNat / 2 ^ 11 % 2 ^ 3 ≤ 5

/-- Bits 10:0. Kind: D -/
def Hint.parameter (hint : Hint) : ℕ := hint.header.toNat % 2 ^ 11

/-- A hint is its header and nothing else. Kind: D -/
def Hint.encode (hint : Hint) : List UInt8 := headerOctets hint.header.toNat

theorem DataPacket.yields (p : DataPacket) : Yields p.encode p.frame?.toList := by
  cases p with
  | padding => exact yields_padding
  | data bmCrc eth crc hpos hcrc hmax =>
      refine yields_data ?_ ?_ hpos hcrc
      · split_ifs <;> omega
      · split_ifs <;> omega

lemma yields_dataPackets (packets : List DataPacket) :
    Yields (packets.flatMap DataPacket.encode) (packets.filterMap DataPacket.frame?) :=
  yields_flatMap DataPacket.yields packets

lemma frames_dataPackets (packets : List DataPacket) :
    frames (packets.flatMap DataPacket.encode) = packets.filterMap DataPacket.frame? :=
  (yields_dataPackets packets).framesFrom_eq

/-- As many octets as the parameter says are skipped behind a hint; where there are not as many, the
rest of the transfer is abandoned. Kind: L -/
theorem framesFrom_hint (hint : Hint) (pre rest : List UInt8) :
    let buffer := pre ++ (hint.encode ++ rest)
    framesFrom (pointer buffer) buffer.length pre.length =
      if hint.parameter ≤ rest.length then
        framesFrom (pointer buffer) buffer.length ((pre ++ hint.encode).length + hint.parameter)
      else [] := by
  intro buffer
  have hvalue : (readLe16 (pointer buffer) pre.length).toNat = hint.header.toNat :=
    headerOctets_toNat hint.header.toNat_lt pre rest
  have htwo : hint.encode.length = usbEemHeaderLen := rfl
  have htotal : buffer.length = pre.length + usbEemHeaderLen + rest.length := by
    rw [List.length_append, List.length_append, htwo, Nat.add_assoc]
  have hin : pre.length + usbEemHeaderLen ≤ buffer.length := by omega
  have hcommand := hvalue ▸ hint.bmType
  have hskip : (readLe16 (pointer buffer) pre.length).toNat % 2048 = hint.parameter :=
    congrArg (· % 2048) hvalue
  have hbehind : (pre ++ hint.encode).length = pre.length + usbEemHeaderLen := by
    rw [List.length_append, htwo]
  rw [hbehind]
  by_cases hfits : hint.parameter ≤ rest.length
  · rw [if_pos hfits]
    exact (rxCursor _ _).items_congr (next_of_command hin hcommand hskip (by omega))
  · rw [if_neg hfits]
    have hnext := next_of_command_over hin hcommand hskip (by omega)
    exact (rxCursor _ _).items_of_none (congrArg Prod.fst hnext)

/-- A frame the walk finds leaves room before it and behind it. Kind: L -/
theorem length_le_of_mem_framesFrom {buf : ℕ → UInt8} {bufLen start : ℕ} {frame : List UInt8}
    (h : frame ∈ framesFrom buf bufLen start) :
    start + usbEemHeaderLen + frame.length + usbEemCrcLen ≤ bufLen := by
  rw [framesFrom_eq_spans, List.mem_map] at h
  obtain ⟨s, hs, rfl⟩ := h
  obtain ⟨hlo, -, hhi⟩ := (spanFootprint buf bufLen).within start s hs
  have hframe := (span_of_mem_items hs).1
  have hlength : (s.octets buf).length = s.frameLen := by simp [RxSpan.octets, octets]
  change start ≤ s.frame - usbEemHeaderLen at hlo
  change s.frame + s.frameLen + usbEemCrcLen ≤ bufLen at hhi
  omega

/-- Behind a hint with a parameter there is not the room any more that a lone frame needs.
Kind: L -/
theorem frames_hint_ne (hint : Hint) (hparam : hint.parameter ≠ 0) (p : DataPacket)
    {eth : List UInt8} (hp : p.frame? = some eth) : frames (hint.encode ++ p.encode) ≠ [eth] := by
  intro h
  have hmem : eth ∈ framesFrom (pointer ([] ++ (hint.encode ++ p.encode)))
      ([] ++ (hint.encode ++ p.encode)).length ([] : List UInt8).length := by
    change eth ∈ frames (hint.encode ++ p.encode)
    rw [h]
    exact List.mem_singleton_self eth
  rw [framesFrom_hint hint [] p.encode] at hmem
  have htwo : hint.encode.length = usbEemHeaderLen := rfl
  split_ifs at hmem with hfits
  · have hroom := length_le_of_mem_framesFrom hmem
    have hlength : p.encode.length = usbEemHeaderLen + (eth.length + usbEemCrcLen) := by
      cases p with
      | padding => cases hp
      | data bmCrc eth' crc _ hcrc _ =>
          cases hp
          rw [DataPacket.encode, List.length_append, List.length_append, hcrc]
          rfl
    simp only [List.nil_append, List.length_append, htwo, hlength] at hroom
    omega
  · cases hmem

/-- The shortest frame that is ever wrapped, 14 octets. Kind: D -/
def shortestFrame : DataPacket :=
  .data false (List.replicate 14 0) [0xDE, 0xAD, 0xBE, 0xEF] (by decide) rfl (by decide)

/-- **Which hints are transparent.** Every command is taken to have as many octets behind its header
as its low 11 bits say, hints too, which have none. So a hint between the packets of a transfer
leaves its frames as they are, whatever the packets, exactly when its parameter is zero.
Source: `UsbEemFraming.c` `UsbEemNextRxFrame`
Kind: P -/
theorem hint_transparent_iff (hint : Hint) :
    (∀ before after : List DataPacket,
      frames (before.flatMap DataPacket.encode ++
          (hint.encode ++ after.flatMap DataPacket.encode)) =
        frames (before.flatMap DataPacket.encode ++ after.flatMap DataPacket.encode)) ↔
      hint.parameter = 0 := by
  constructor
  · intro h
    by_contra hparam
    refine frames_hint_ne hint hparam shortestFrame rfl ?_
    have hlast := h [] [shortestFrame]
    rw [List.flatMap_nil, List.nil_append, List.nil_append, frames_dataPackets,
      List.flatMap_singleton] at hlast
    exact hlast
  · intro hparam before after
    have hhint : Yields hint.encode [] := by
      have hnone : Yields (headerOctets hint.header.toNat ++ []) [] :=
        yields_command hint.bmType hint.header.toNat_lt (hparam.trans List.length_nil.symm)
      rwa [List.append_nil] at hnone
    have hwith := ((yields_dataPackets before).append
      (hhint.append (yields_dataPackets after))).framesFrom_eq
    have hwithout := ((yields_dataPackets before).append (yields_dataPackets after)).framesFrom_eq
    rw [List.nil_append] at hwith
    exact hwith.trans hwithout.symm

/-- A Response Hint with parameter 1 before a frame as `UsbEemFrameTx` wraps it: the frame is lost.
Kind: C -/
theorem response_hint_loses_frame :
    ∃ (hint : Hint) (out : List UInt8), hint.header = 0x9801 ∧
      usbEemFrameTx usbEemMaxBulkSize (List.replicate 14 0) = .ok out ∧
      frames out = [List.replicate 14 0] ∧ frames (hint.encode ++ out) ≠ frames out := by
  have hframes : frames shortestFrame.encode = [List.replicate 14 0] := by
    have h := frames_dataPackets [shortestFrame]
    rwa [List.flatMap_singleton] at h
  refine ⟨⟨0x9801, by decide, by decide⟩, shortestFrame.encode, rfl, by decide, hframes, ?_⟩
  rw [hframes]
  exact frames_hint_ne _ (by decide) shortestFrame rfl

end NucBios.Usb
