import NucBios.Lib.Machine
import NucBios.Usb.EemFraming
import NucBios.Usb.Io

/-!
# `UsbEthEemReceive`: one frame a call, out of transfers that carry several

A received transfer is staged in `RxBuffer` and walked with `RxOffset`; a new one is asked for when
the walk is over. What the caller sees over many calls is a stream of frames.

* `usbEthEemReceive` — the call; `eem` — the machine of calls, with a log of what each did;
* `receive_refines_stream` — for all calls and all transfers, well formed or not: the cursor stays
  in the buffer, nothing is thrown away before it is walked, and the frames handed out are those of
  the transfers, in order, each once, less those longer than the caller's buffer.
-/

namespace NucBios.Usb

open Lib Uefi

/-- The fields of `USB_ETHERNET_DRIVER` the receive path uses. Kind: D -/
structure EemDriver where
  bulkInEndpoint : UInt8
  bulkOutEndpoint : UInt8
  rxBuffer : ℕ → UInt8
  rxLength : ℕ
  rxOffset : ℕ

/-- One call: the caller's buffer, and the answers it meets. Kind: D -/
structure ReceiveCall where
  /-- `*PacketLength` on input. -/
  packetLength : ℕ
  interface : Except EfiStatus InterfaceDescriptor
  endpoint : ℕ → Except EfiStatus EndpointDescriptor
  bulk : BulkAnswer usbEemMaxBulkSize

/-- Source: `UsbEemFunction.c` `GetEndpoint`. The last endpoint of each direction counts.
Kind: D -/
def getEndpoint (c : ReceiveCall) (d : EemDriver) : EemDriver :=
  match c.interface with
  | .error _ => d
  | .ok i =>
      (bulkEndpoints i.numEndpoints c.endpoint).foldl (fun d e =>
        if e.isIn then { d with bulkInEndpoint := e.endpointAddress }
        else { d with bulkOutEndpoint := e.endpointAddress }) d

/-- What a call did. Kind: D -/
structure Received where
  driver : EemDriver
  /-- The transfer, if one was asked for. -/
  transfer : Option (BulkAnswer usbEemMaxBulkSize)
  /-- The frame `UsbEemNextRxFrame` found. -/
  frame : Option (List UInt8)
  /-- The return value, with the packet on success. -/
  packet : Except EfiStatus (List UInt8)

/-- A buffer after some octets were put at its start. Kind: D -/
def overwrite (data : List UInt8) (buf : ℕ → UInt8) : ℕ → UInt8 := fun i => data.getD i (buf i)

/-- From `UsbEemNextRxFrame` on. Kind: D -/
def walkRxBuffer (d : EemDriver) (packetLength : ℕ)
    (transfer : Option (BulkAnswer usbEemMaxBulkSize)) : Received :=
  let next := usbEemNextRxFrame d.rxBuffer d.rxLength d.rxOffset
  { driver := { d with rxOffset := next.2 }
    transfer := transfer
    frame := next.1
    packet := match next.1 with
      | none => .error efiNotReady
      | some frame => if packetLength < frame.length then .error efiNotReady else .ok frame }

/-- Source: `UsbEemFunction.c` `UsbEthEemReceive`
Kind: D -/
def usbEthEemReceive (d : EemDriver) (c : ReceiveCall) : Received :=
  let d := if d.bulkInEndpoint = 0 then getEndpoint c d else d
  if d.rxLength ≤ d.rxOffset then
    let emptied :=
      { d with rxBuffer := overwrite c.bulk.data d.rxBuffer, rxLength := 0, rxOffset := 0 }
    if efiError c.bulk.status then
      -- an empty poll is the normal case on an idle link
      ⟨emptied, some c.bulk, none,
        .error (if c.bulk.status = efiTimeout then efiNotReady else c.bulk.status)⟩
    else
      walkRxBuffer { emptied with rxLength := c.bulk.data.length } c.packetLength (some c.bulk)
  else
    walkRxBuffer d c.packetLength none

/-! ### The machine of calls -/

/-- A call and what it did. Kind: D -/
structure RxRecord where
  call : ReceiveCall
  result : Received

/-- The driver, and the calls so far. Kind: D -/
structure RxWorld where
  driver : EemDriver
  log : List RxRecord

/-- Any call may come next. Kind: D -/
def eem : Machine RxWorld ReceiveCall where
  step w c :=
    let result := usbEthEemReceive w.driver c
    some ⟨result.driver, w.log ++ [⟨c, result⟩]⟩

/-- The transfers asked for, in order. Kind: D -/
def transfers (log : List RxRecord) : List (BulkAnswer usbEemMaxBulkSize) :=
  log.filterMap fun r => r.result.transfer

/-- What of an answer counts as received. Kind: D -/
def received {max : ℕ} (t : BulkAnswer max) : Option (List UInt8) :=
  if efiError t.status then none else some t.data

/-- The octets of the transfers that succeeded. Kind: D -/
def successful (log : List RxRecord) : List (List UInt8) :=
  (transfers log).filterMap received

/-- The frames the calls reached, each with the `PacketLength` of its call. Kind: D -/
def reached (log : List RxRecord) : List (List UInt8 × ℕ) :=
  log.filterMap fun r => r.result.frame.map fun frame => (frame, r.call.packetLength)

/-- The frames delivered with `EFI_SUCCESS`. Kind: D -/
def delivered (log : List RxRecord) : List (List UInt8) :=
  log.filterMap fun r => r.result.packet.toOption

/-- The frames of a transfer, walked from offset 0. Kind: D -/
def frames (data : List UInt8) : List (List UInt8) := framesFrom (pointer data) data.length 0

/-- The frames staged and not yet reached. Kind: D -/
def EemDriver.pending (d : EemDriver) : List (List UInt8) :=
  framesFrom d.rxBuffer d.rxLength d.rxOffset

/-- As `UsbEemDriverStart` leaves it: nothing staged, the buffer as it was allocated. Kind: D -/
def EemDriver.started (bulkIn bulkOut : UInt8) (buffer : ℕ → UInt8) : EemDriver :=
  ⟨bulkIn, bulkOut, buffer, 0, 0⟩

/-! ### One call -/

/-- The walk does not look behind the transfer. Kind: L -/
theorem span_congr {buf buf' : ℕ → UInt8} {bufLen : ℕ} (h : ∀ i < bufLen, buf i = buf' i)
    (offset : ℕ) : usbEemNextRxSpan buf bufLen offset = usbEemNextRxSpan buf' bufLen offset := by
  have hheader : ∀ i, i + usbEemHeaderLen ≤ bufLen → readLe16 buf i = readLe16 buf' i := by
    intro i hi
    simp only [usbEemHeaderLen] at hi
    rw [readLe16, readLe16, h i (by omega), h (i + 1) (by omega)]
  -- on the octets left: with the same header both walks take the same branch
  induction hleft : bufLen - offset using Nat.strong_induction_on generalizing offset with
  | _ left ih =>
      rw [usbEemNextRxSpan.eq_def buf, usbEemNextRxSpan.eq_def buf']
      by_cases hin : offset + usbEemHeaderLen ≤ bufLen
      · have hfurther : ∀ next, offset + usbEemHeaderLen ≤ next →
            usbEemNextRxSpan buf bufLen next = usbEemNextRxSpan buf' bufLen next := by
          intro next hnext
          refine ih (bufLen - next) ?_ next rfl
          simp only [usbEemHeaderLen] at hin hnext
          omega
        rw [if_pos hin, if_pos hin, ← hheader offset hin]
        simp only [hfurther _ le_rfl, hfurther _ (Nat.le_add_right _ _)]
      · rw [if_neg hin, if_neg hin]

/-- Nor do the octets of a frame stand behind it. Kind: L -/
theorem next_congr {buf buf' : ℕ → UInt8} {bufLen : ℕ} (h : ∀ i < bufLen, buf i = buf' i)
    (offset : ℕ) :
    usbEemNextRxFrame buf bufLen offset = usbEemNextRxFrame buf' bufLen offset := by
  simp only [usbEemNextRxFrame, span_congr h]
  refine congrArg (·, _) (Option.map_congr fun s hs => ?_)
  obtain ⟨-, -, hpast⟩ := span_spec buf' bufLen offset s hs
  have hle := hpast ▸ next_le buf' bufLen offset
  refine List.map_congr_left fun i hi => h _ ?_
  rw [List.mem_range] at hi
  rw [RxSpan.past] at hle
  omega

lemma framesFrom_congr {buf buf' : ℕ → UInt8} {bufLen : ℕ} (h : ∀ i < bufLen, buf i = buf' i)
    (offset : ℕ) : framesFrom buf bufLen offset = framesFrom buf' bufLen offset := by
  have hcursor : rxCursor buf bufLen = rxCursor buf' bufLen := by
    simp only [rxCursor, funext (next_congr h)]
  rw [framesFrom, framesFrom, hcursor]

/-- What one call does to the stream. Kind: D -/
structure CallSpec (d : EemDriver) (c : ReceiveCall) (r : Received) : Prop where
  offset_le : r.driver.rxOffset ≤ r.driver.rxLength
  length_le : r.driver.rxLength ≤ usbEemMaxBulkSize
  /-- A transfer is asked for exactly when the one staged is walked out. -/
  transfer_eq : r.transfer = if d.rxLength ≤ d.rxOffset then some c.bulk else none
  kept : r.transfer = none → r.driver.rxLength = d.rxLength
  staged : ∀ t ∈ r.transfer, efiError t.status = true ∨ r.driver.rxLength = t.data.length
  /-- Frames come in with a transfer and go out one by one. -/
  account : d.pending ++ (r.transfer.bind received).toList.flatMap frames =
    r.frame.toList ++ r.driver.pending
  /-- A call without a frame leaves none. -/
  nothing_left : r.frame = none → r.driver.pending = []
  packet_eq : r.packet.toOption = r.frame.filter fun frame => frame.length ≤ c.packetLength

lemma CallSpec.frame_eq {d : EemDriver} {c : ReceiveCall} {r : Received} (h : CallSpec d c r) :
    r.frame = (d.pending ++ (r.transfer.bind received).toList.flatMap frames).head? := by
  rw [h.account]
  rcases hframe : r.frame with _ | frame
  · rw [h.nothing_left hframe]
    rfl
  · rfl

/-- The endpoints are all that `GetEndpoint` touches. Kind: L -/
theorem getEndpoint_frame (c : ReceiveCall) (d : EemDriver) :
    (getEndpoint c d).rxBuffer = d.rxBuffer ∧ (getEndpoint c d).rxLength = d.rxLength ∧
      (getEndpoint c d).rxOffset = d.rxOffset := by
  unfold getEndpoint
  cases c.interface with
  | error => exact ⟨rfl, rfl, rfl⟩
  | ok i =>
      simp only
      induction bulkEndpoints i.numEndpoints c.endpoint generalizing d with
      | nil => exact ⟨rfl, rfl, rfl⟩
      | cons e es ih =>
          rw [List.foldl_cons]
          split_ifs
          · exact ih _
          · exact ih _

/-- The walk takes one frame off those staged, or finds none left. Kind: L -/
theorem walk_account (d : EemDriver) (packetLength : ℕ)
    (transfer : Option (BulkAnswer usbEemMaxBulkSize)) :
    d.pending = (walkRxBuffer d packetLength transfer).frame.toList ++
      (walkRxBuffer d packetLength transfer).driver.pending := by
  set cursor := rxCursor d.rxBuffer d.rxLength
  change cursor.items d.rxOffset =
    (cursor.next d.rxOffset).1.toList ++ cursor.items (cursor.next d.rxOffset).2
  rcases h : (cursor.next d.rxOffset).1 with _ | frame
  · rw [cursor.items_of_none h, cursor.items_stop (cursor.stop_of_none _ h).ge]
    rfl
  · rw [cursor.items_of_some h]
    rfl

lemma pending_of_walk_none {d : EemDriver} {packetLength : ℕ}
    {transfer : Option (BulkAnswer usbEemMaxBulkSize)}
    (h : (walkRxBuffer d packetLength transfer).frame = none) :
    (walkRxBuffer d packetLength transfer).driver.pending = [] :=
  (rxCursor d.rxBuffer d.rxLength).items_stop ((rxCursor d.rxBuffer d.rxLength).stop_of_none _ h).ge

lemma walk_packet (d : EemDriver) (packetLength : ℕ)
    (transfer : Option (BulkAnswer usbEemMaxBulkSize)) :
    (walkRxBuffer d packetLength transfer).packet.toOption =
      (walkRxBuffer d packetLength transfer).frame.filter fun frame =>
        frame.length ≤ packetLength := by
  unfold walkRxBuffer
  simp only
  rcases (usbEemNextRxFrame d.rxBuffer d.rxLength d.rxOffset).1 with _ | frame
  · rfl
  · by_cases h : packetLength < frame.length
    · simp [h, Option.filter, Except.toOption]
    · simp [h, Option.filter, Except.toOption, not_lt.mp h]

/-- The frames of a transfer just staged are those of its octets. Kind: L -/
theorem framesFrom_overwrite (data : List UInt8) (buf : ℕ → UInt8) :
    framesFrom (overwrite data buf) data.length 0 = frames data := by
  refine framesFrom_congr (fun i hi => ?_) 0
  simp [overwrite, pointer, hi]

/-- The endpoints, looked up or not, play no part in what is staged. Kind: L -/
lemma exists_resolved (c : ReceiveCall) (d : EemDriver) :
    ∃ d', (if d.bulkInEndpoint = 0 then getEndpoint c d else d) = d' ∧
      d'.rxBuffer = d.rxBuffer ∧ d'.rxLength = d.rxLength ∧ d'.rxOffset = d.rxOffset := by
  refine ⟨_, rfl, ?_⟩
  split_ifs
  · exact getEndpoint_frame c d
  · exact ⟨rfl, rfl, rfl⟩

theorem receive_spec {d : EemDriver} (c : ReceiveCall) (hlen : d.rxLength ≤ usbEemMaxBulkSize) :
    CallSpec d c (usbEthEemReceive d c) := by
  obtain ⟨d', hd', hbuf, hlength, hoffset⟩ := exists_resolved c d
  have hpending : d'.pending = d.pending := by
    rw [EemDriver.pending, hbuf, hlength, hoffset]
    rfl
  unfold usbEthEemReceive
  simp only [hd']
  by_cases hout : d.rxLength ≤ d.rxOffset
  · have hnone : d.pending = [] := (rxCursor d.rxBuffer d.rxLength).items_stop hout
    rw [hlength, hoffset, if_pos hout]
    by_cases herr : efiError c.bulk.status = true
    · rw [if_pos herr]
      constructor
      · exact le_rfl
      · exact Nat.zero_le _
      · rw [if_pos hout]
      · exact fun h => nomatch h
      · rintro t ⟨⟩
        exact .inl herr
      · have hempty : (framesFrom (overwrite c.bulk.data d'.rxBuffer) 0 0) = [] :=
          (rxCursor _ 0).items_stop le_rfl
        rw [hnone]
        simp [received, herr, EemDriver.pending, hempty]
      · exact fun _ => (rxCursor _ 0).items_stop le_rfl
      · rfl
    · rw [if_neg herr]
      constructor
      · exact next_le _ _ _
      · exact c.bulk.length_le
      · rw [if_pos hout]
        rfl
      · exact fun h => nomatch h
      · rintro t ⟨⟩
        exact .inr rfl
      · rw [← walk_account, hnone]
        simp only [walkRxBuffer, Option.bind_some, received, herr, Bool.false_eq_true, if_false,
          Option.toList_some, List.flatMap_cons, List.flatMap_nil, List.append_nil,
          List.nil_append, EemDriver.pending]
        exact (framesFrom_overwrite _ _).symm
      · exact pending_of_walk_none
      · exact walk_packet _ _ _
  · rw [hlength, hoffset, if_neg hout]
    constructor
    · exact next_le _ _ _
    · exact hlength.trans_le hlen
    · rw [if_neg hout]
      rfl
    · exact fun _ => hlength
    · exact fun t ht => nomatch ht
    · rw [← walk_account, hpending]
      simp [walkRxBuffer]
    · exact pending_of_walk_none
    · exact walk_packet _ _ _

/-! ### Many calls -/

/-- What holds after any calls. Kind: D -/
structure Streamed (w : RxWorld) : Prop where
  offset_le : w.driver.rxOffset ≤ w.driver.rxLength
  length_le : w.driver.rxLength ≤ usbEemMaxBulkSize
  /-- What is staged is the last transfer, unless that failed. -/
  staged : ∀ t ∈ (transfers w.log).getLast?,
    efiError t.status = true ∨ w.driver.rxLength = t.data.length
  account : (successful w.log).flatMap frames = (reached w.log).map Prod.fst ++ w.driver.pending
  delivered_eq : delivered w.log =
    ((reached w.log).filter fun p => p.1.length ≤ p.2).map Prod.fst

lemma streamed_started (bulkIn bulkOut : UInt8) (buffer : ℕ → UInt8) :
    Streamed ⟨.started bulkIn bulkOut buffer, []⟩ where
  offset_le := le_rfl
  length_le := Nat.zero_le _
  staged := fun _ ht => nomatch ht
  account := ((rxCursor buffer 0).items_stop le_rfl).symm
  delivered_eq := rfl

lemma filterMap_concat {α β : Type*} (f : α → Option β) (l : List α) (x : α) :
    (l ++ [x]).filterMap f = l.filterMap f ++ (f x).toList := by
  rw [List.filterMap_append]
  cases h : f x <;> simp [h]

/-- One more call. Kind: L -/
theorem streamed_step (w : RxWorld) (c : ReceiveCall) (t : RxWorld) (hw : Streamed w)
    (h : eem.step w c = some t) : Streamed t := by
  cases h
  have hspec := receive_spec c hw.length_le
  set r := usbEthEemReceive w.driver c
  have htransfers : transfers (w.log ++ [⟨c, r⟩]) = transfers w.log ++ r.transfer.toList :=
    filterMap_concat _ _ _
  have hreached : reached (w.log ++ [⟨c, r⟩]) = reached w.log ++
      (r.frame.map fun frame => (frame, c.packetLength)).toList := filterMap_concat _ _ _
  refine ⟨hspec.offset_le, hspec.length_le, ?_, ?_, ?_⟩
  · rw [htransfers]
    rcases htransfer : r.transfer with _ | t
    · rw [hspec.kept htransfer, Option.toList_none, List.append_nil]
      exact hw.staged
    · rw [Option.toList_some, List.getLast?_concat]
      rintro t ⟨⟩
      exact hspec.staged _ htransfer
  · have hnew : successful (w.log ++ [⟨c, r⟩]) =
        successful w.log ++ (r.transfer.bind received).toList := by
      rw [successful, htransfers, List.filterMap_append]
      cases r.transfer with
      | none => rfl
      | some t => cases ht : received t <;> simp [ht, successful]
    rw [hnew, hreached, List.flatMap_append, hw.account, List.append_assoc, hspec.account]
    cases r.frame <;> simp
  · have hdelivered : delivered (w.log ++ [⟨c, r⟩]) =
        delivered w.log ++ r.packet.toOption.toList := filterMap_concat _ _ _
    rw [hdelivered, hreached, hw.delivered_eq, hspec.packet_eq, List.filter_append, List.map_append]
    congr 1
    cases r.frame with
    | none => rfl
    | some frame => by_cases hfits : frame.length ≤ c.packetLength <;> simp [hfits, Option.filter]

/-- **The receive path is a stream of frames.** After any calls, with any transfers: the cursor is
within the transfer staged and that within the buffer; the next transfer is asked for only when the
last one is walked to its end, or failed; the frames of the successful transfers, each walked from
offset 0, are the frames the calls reached, in order, and those still staged; and the frames
delivered are those reached that were not longer than the `PacketLength` of the call. The calls get
on: one asks for a transfer exactly when the cursor is at the end of the last, and reaches the first
of the frames still staged, or of those the transfer brings.
Source: `UsbEemFunction.c` `UsbEthEemReceive`
Kind: P -/
theorem receive_refines_stream (bulkIn bulkOut : UInt8) (buffer : ℕ → UInt8)
    (calls : List ReceiveCall) :
    ∃ w, eem.run ⟨.started bulkIn bulkOut buffer, []⟩ calls = some w ∧
      (w.driver.rxOffset ≤ w.driver.rxLength ∧ w.driver.rxLength ≤ 4096) ∧
      (∀ c, (usbEthEemReceive w.driver c).transfer.isSome = true →
        ∀ t ∈ (transfers w.log).getLast?,
          efiError t.status = true ∨ w.driver.rxOffset = t.data.length) ∧
      (successful w.log).flatMap frames = (reached w.log).map Prod.fst ++ w.driver.pending ∧
      delivered w.log = ((reached w.log).filter fun p => p.1.length ≤ p.2).map Prod.fst ∧
      ∀ c, (usbEthEemReceive w.driver c).transfer =
          (if w.driver.rxLength ≤ w.driver.rxOffset then some c.bulk else none) ∧
        (usbEthEemReceive w.driver c).frame = (w.driver.pending ++
          ((usbEthEemReceive w.driver c).transfer.bind received).toList.flatMap frames).head? := by
  obtain ⟨w, hw⟩ := eem.exists_run_of_total (fun _ _ => ⟨_, rfl⟩)
    ⟨.started bulkIn bulkOut buffer, []⟩ calls
  have hinv : Streamed w :=
    eem.invariant_of_run Streamed streamed_step (streamed_started bulkIn bulkOut buffer) hw
  refine ⟨w, hw, ⟨hinv.offset_le, hinv.length_le⟩, ?_, hinv.account, hinv.delivered_eq,
    fun c => ⟨(receive_spec c hinv.length_le).transfer_eq,
      (receive_spec c hinv.length_le).frame_eq⟩⟩
  intro c hasked t ht
  rw [(receive_spec c hinv.length_le).transfer_eq] at hasked
  split_ifs at hasked with hout
  · refine (hinv.staged t ht).imp_right fun hlen => ?_
    have hle := hinv.offset_le
    omega
  · cases hasked

end NucBios.Usb
