import NucBios.Lib.Machine
import NucBios.Lib.Ring
import NucBios.Usb.Io

/-!
# The CDC-ACM serial port: a receive ring behind `EFI_SERIAL_IO_PROTOCOL`

A timer moves what the gadget has queued into a ring (`usbCdcAcmPoll`), `Read` serves from the ring.
Both run at the same task priority, so they do not interrupt each other; in which order they come is
open, and so is what each transfer brings. `acm` is the machine of these calls.

* `rxCount`, `rxFree`, `rxPut`, `usbCdcAcmPoll`, `usbCdcAcmRead`, … — the driver's functions;
* `receive_ring_refines_fifo` — over every sequence of calls the ring is a queue: what `Read` has
  returned since the last `Reset`, followed by what the ring holds, is what the transfers have
  brought since. No octet is dropped, `Read` returns the front of the queue and takes it off, and
  the three questions a caller or the timer can ask (is there room for a packet, are there enough
  octets, is there any) are answered by the length of the queue.
-/

namespace NucBios.Usb

open Lib Uefi

/-! ### The port -/

/-- `USB_CDC_ACM_RX_FIFO_SIZE`. Kind: D -/
def usbCdcAcmRxFifoSize : ℕ := 4096

def efiSerialDataTerminalReady : UInt32 := 0x00000001
def efiSerialRequestToSend : UInt32 := 0x00000002
def efiSerialInputBufferEmpty : UInt32 := 0x00000100
def efiSerialOutputBufferEmpty : UInt32 := 0x00000200
def efiSerialHardwareLoopbackEnable : UInt32 := 0x00001000
def efiSerialSoftwareLoopbackEnable : UInt32 := 0x00002000
def efiSerialHardwareFlowControlEnable : UInt32 := 0x00004000

def usbCdcAcmControlDtr : UInt16 := 0x0001
def usbCdcAcmControlRts : UInt16 := 0x0002

/-- The fields of `USB_CDC_ACM_DEV` behind the protocol: `Rx`, `RxHead` and `RxTail` are the ring.
Kind: D -/
structure AcmDev where
  rx : Ring UInt8 usbCdcAcmRxFifoSize
  bulkInMaxPacket : ℕ
  controlBits : UInt32

/-- Source: `SerialIo.c` `RxCount`. Kind: D -/
def rxCount (dev : AcmDev) : ℕ :=
  if dev.rx.tail ≤ dev.rx.head then
    dev.rx.head - dev.rx.tail
  else
    usbCdcAcmRxFifoSize - dev.rx.tail + dev.rx.head

/-- Source: `SerialIo.c` `RxFree`. Kind: D -/
def rxFree (dev : AcmDev) : ℕ := usbCdcAcmRxFifoSize - 1 - rxCount dev

/-- The port after some octets were put into the ring, and how many did not fit.
Source: `SerialIo.c` `RxPut`
Kind: D -/
def rxPut (dev : AcmDev) (data : List UInt8) : AcmDev × ℕ :=
  let room := rxFree dev
  let length := if room < data.length then room else data.length
  ({ dev with rx := dev.rx.pushAll (data.take length) }, data.length - length)

/-- What a tick of the timer did. Kind: D -/
structure Polled where
  dev : AcmDev
  /-- A transfer was issued. -/
  issued : Bool
  /-- The octets `RxPut` dropped. -/
  dropped : ℕ

/-- Source: `SerialIo.c` `UsbCdcAcmPoll`. Kind: D -/
def usbCdcAcmPoll {m : ℕ} (dev : AcmDev) (answer : BulkAnswer m) : Polled :=
  -- only when a whole packet can be stored
  if rxFree dev < dev.bulkInMaxPacket then
    ⟨dev, false, 0⟩
  else if efiError answer.status || answer.data.length == 0 then
    ⟨dev, true, 0⟩
  else
    let put := rxPut dev answer.data
    ⟨put.1, true, put.2⟩

/-- The port after the bits were set, the status, and the line state sent to the device.
Source: `SerialIo.c` `UsbCdcAcmSetControl`
Kind: D -/
def usbCdcAcmSetControl (dev : AcmDev) (control : UInt32) : AcmDev × EfiStatus × Option UInt16 :=
  if control &&& (efiSerialHardwareLoopbackEnable ||| efiSerialSoftwareLoopbackEnable |||
      efiSerialHardwareFlowControlEnable) ≠ 0 then
    (dev, efiUnsupported, none)
  else
    let controlBits := control &&& (efiSerialDataTerminalReady ||| efiSerialRequestToSend)
    let dtr := if controlBits &&& efiSerialDataTerminalReady ≠ 0 then usbCdcAcmControlDtr else 0
    let rts := if controlBits &&& efiSerialRequestToSend ≠ 0 then usbCdcAcmControlRts else 0
    ({ dev with controlBits := controlBits }, efiSuccess, some (dtr ||| rts))

/-- Source: `SerialIo.c` `UsbCdcAcmReset`. Kind: D -/
def usbCdcAcmReset (dev : AcmDev) : AcmDev × EfiStatus × Option UInt16 :=
  usbCdcAcmSetControl { dev with rx := dev.rx.clear } dev.controlBits

/-- Source: `SerialIo.c` `UsbCdcAcmGetControl`. Kind: D -/
def usbCdcAcmGetControl (dev : AcmDev) : UInt32 :=
  let control := dev.controlBits ||| efiSerialOutputBufferEmpty
  if rxCount dev = 0 then control ||| efiSerialInputBufferEmpty else control

/-- The loop of `UsbCdcAcmRead`, with so many octets still wanted. Kind: D -/
def readLoop : ℕ → AcmDev → List UInt8 × AcmDev
  | 0, dev => ([], dev)
  | wanted + 1, dev =>
      if 0 < rxCount dev then
        let rest := readLoop wanted { dev with rx := dev.rx.pop }
        (dev.rx.cells dev.rx.tail :: rest.1, rest.2)
      else
        ([], dev)

/-- What a `Read` did; the octets number `*BufferSize` on output. Kind: D -/
structure ReadBack where
  dev : AcmDev
  status : EfiStatus
  bytes : List UInt8

/-- Source: `SerialIo.c` `UsbCdcAcmRead`. Kind: D -/
def usbCdcAcmRead (dev : AcmDev) (wanted : ℕ) : ReadBack :=
  let out := readLoop wanted dev
  ⟨out.2, if out.1.length = wanted then efiSuccess else efiTimeout, out.1⟩

/-- A zeroed context, with the packet size of the endpoint. Kind: D -/
def AcmDev.zeroed (m : ℕ) : AcmDev := ⟨⟨fun _ => 0, 0, 0, by decide, by decide⟩, m, 0⟩

/-- As `UsbCdcAcmDriverStart` leaves it, with the two line bits asserted. Kind: D -/
def AcmDev.started (m : ℕ) : AcmDev :=
  (usbCdcAcmSetControl (.zeroed m) (efiSerialDataTerminalReady ||| efiSerialRequestToSend)).1

/-! ### The ring is a queue -/

/-- The octets received and not yet read. Kind: D -/
def AcmDev.queue (dev : AcmDev) : List UInt8 := dev.rx.contents

lemma rxCount_eq (dev : AcmDev) : rxCount dev = dev.queue.length := by
  rw [AcmDev.queue, Ring.length_contents, Ring.count_eq]
  rfl

lemma rxFree_eq (dev : AcmDev) : rxFree dev = 4095 - dev.queue.length := by
  rw [rxFree, rxCount_eq]
  rfl

/-- Octets that fit are appended, and none is dropped. Kind: L -/
theorem rxPut_spec {dev : AcmDev} {data : List UInt8} (h : data.length ≤ rxFree dev) :
    (rxPut dev data).1.queue = dev.queue ++ data ∧ (rxPut dev data).2 = 0 := by
  have hfree : dev.rx.free = rxFree dev := by
    rw [rxFree, rxCount_eq, AcmDev.queue, Ring.free_eq]
  unfold rxPut
  simp only [if_neg (not_lt.mpr h), List.take_length, Nat.sub_self, and_true]
  exact Ring.contents_pushAll data dev.rx (by rw [hfree]; exact h)

/-- `Read` takes octets off the front, as many as wanted or as there are. Kind: L -/
theorem readLoop_spec :
    ∀ (wanted : ℕ) (dev : AcmDev), (readLoop wanted dev).1 = dev.queue.take wanted ∧
      (readLoop wanted dev).2.queue = dev.queue.drop wanted ∧
      (readLoop wanted dev).2.bulkInMaxPacket = dev.bulkInMaxPacket ∧
      (readLoop wanted dev).2.controlBits = dev.controlBits
  | 0, dev => by simp [readLoop]
  | wanted + 1, dev => by
      rw [readLoop]
      by_cases hcount : 0 < rxCount dev
      · have hcons : dev.queue =
            dev.rx.cells dev.rx.tail :: AcmDev.queue { dev with rx := dev.rx.pop } := by
          rw [rxCount_eq, AcmDev.queue, Ring.length_contents] at hcount
          exact dev.rx.contents_eq_cons hcount
        obtain ⟨hbytes, hrest, hpacket, hbits⟩ := readLoop_spec wanted { dev with rx := dev.rx.pop }
        rw [if_pos hcount, hcons]
        simp only [hbytes, hrest, List.take_succ_cons, List.drop_succ_cons, hpacket, hbits,
          and_self]
      · have hempty : dev.queue = [] := by
          rw [rxCount_eq] at hcount
          exact List.eq_nil_of_length_eq_zero (by omega)
        rw [if_neg hcount]
        simp [hempty]

/-- `Read` succeeds iff as many octets as wanted are queued. Kind: L -/
theorem read_success_iff (dev : AcmDev) (wanted : ℕ) :
    (usbCdcAcmRead dev wanted).status = efiSuccess ↔ wanted ≤ dev.queue.length := by
  unfold usbCdcAcmRead
  simp only [(readLoop_spec wanted dev).1, List.length_take]
  split_ifs with hall
  · simp only [true_iff]
    omega
  · have hstatus : efiTimeout ≠ efiSuccess := by decide
    simp only [hstatus, false_iff]
    omega

lemma or_and_mask (a b mask : UInt32) : (a ||| b) &&& mask = a &&& mask ||| b &&& mask := by
  rw [← UInt32.toBitVec_inj]
  simp only [UInt32.toBitVec_and, UInt32.toBitVec_or, BitVec.and_or_distrib_right]

/-- The bits the driver keeps do not include the ones it computes. Kind: L -/
theorem getControl_inputBufferEmpty_iff {dev : AcmDev}
    (hbits : dev.controlBits &&& efiSerialInputBufferEmpty = 0) :
    usbCdcAcmGetControl dev &&& efiSerialInputBufferEmpty ≠ 0 ↔ dev.queue = [] := by
  have hoff :
      (dev.controlBits ||| efiSerialOutputBufferEmpty) &&& efiSerialInputBufferEmpty = 0 := by
    rw [or_and_mask, hbits]
    decide
  rw [← List.length_eq_zero_iff, ← rxCount_eq]
  unfold usbCdcAcmGetControl
  simp only
  split_ifs with hzero
  · rw [or_and_mask, hoff]
    simp only [hzero, iff_true]
    decide
  · simp [hoff, hzero]

/-- What a transfer brought. Kind: D -/
def BulkAnswer.brought {m : ℕ} (answer : BulkAnswer m) : List UInt8 :=
  if efiError answer.status then [] else answer.data

/-- A tick asks for a packet iff one fits, and then queues all of what it brings. Kind: L -/
theorem poll_spec {dev : AcmDev} (answer : BulkAnswer dev.bulkInMaxPacket) :
    ((usbCdcAcmPoll dev answer).issued = true ↔ dev.bulkInMaxPacket ≤ 4095 - dev.queue.length) ∧
      (usbCdcAcmPoll dev answer).dev.queue =
        dev.queue ++ (if (usbCdcAcmPoll dev answer).issued then answer.brought else []) ∧
      (usbCdcAcmPoll dev answer).dropped = 0 ∧
      (usbCdcAcmPoll dev answer).dev.bulkInMaxPacket = dev.bulkInMaxPacket ∧
      (usbCdcAcmPoll dev answer).dev.controlBits = dev.controlBits := by
  unfold usbCdcAcmPoll BulkAnswer.brought
  rw [← rxFree_eq]
  by_cases hfree : rxFree dev < dev.bulkInMaxPacket
  · simp [hfree]
  · rw [if_neg hfree]
    rcases herr : efiError answer.status with _ | _
    · by_cases hlen : answer.data.length = 0
      · simp [List.eq_nil_of_length_eq_zero hlen, not_lt.mp hfree]
      · -- a packet at most as long as was asked for, and that much is free
        have hput := rxPut_spec (answer.length_le.trans (not_lt.mp hfree))
        have hdata : ¬ (false || answer.data.length == 0) = true := by simpa using hlen
        rw [if_neg hdata]
        exact ⟨iff_of_true rfl (not_lt.mp hfree), hput.1, hput.2, rfl, rfl⟩
    · simp [not_lt.mp hfree]

/-- Setting the control bits leaves the ring alone and never keeps a buffer-state bit. Kind: L -/
theorem setControl_spec (dev : AcmDev) (control : UInt32)
    (hbits : dev.controlBits &&& efiSerialInputBufferEmpty = 0) :
    (usbCdcAcmSetControl dev control).1.rx = dev.rx ∧
      (usbCdcAcmSetControl dev control).1.bulkInMaxPacket = dev.bulkInMaxPacket ∧
      (usbCdcAcmSetControl dev control).1.controlBits &&& efiSerialInputBufferEmpty = 0 := by
  unfold usbCdcAcmSetControl
  split_ifs
  · exact ⟨rfl, rfl, hbits⟩
  · refine ⟨rfl, rfl, ?_⟩
    change control &&& (efiSerialDataTerminalReady ||| efiSerialRequestToSend) &&&
      efiSerialInputBufferEmpty = 0
    rw [UInt32.and_assoc]
    exact UInt32.and_zero

lemma queue_reset (dev : AcmDev) (hbits : dev.controlBits &&& efiSerialInputBufferEmpty = 0) :
    (usbCdcAcmReset dev).1.queue = [] := by
  obtain ⟨hring, -, -⟩ := setControl_spec { dev with rx := dev.rx.clear } dev.controlBits hbits
  rw [AcmDev.queue, usbCdcAcmReset, hring, Ring.contents_of_head_eq _ rfl]

/-! ### The machine of calls -/

/-- The timer's call and the protocol's. Kind: D -/
inductive AcmCall (m : ℕ)
  | poll (answer : BulkAnswer m)
  | read (wanted : ℕ)
  | getControl
  | setControl (control : UInt32)
  | reset

/-- The port, and an account of its octets. Kind: D -/
structure AcmWorld where
  dev : AcmDev
  /-- What the transfers have brought since the last `Reset`. -/
  received : List UInt8
  /-- What `Read` has returned since the last `Reset`. -/
  returned : List UInt8
  /-- How many octets `RxPut` has dropped, ever. -/
  dropped : ℕ

/-- Any call may come next. Kind: D -/
def acm (m : ℕ) : Machine AcmWorld (AcmCall m) where
  step w
    | .poll answer =>
        let polled := usbCdcAcmPoll w.dev answer
        some { w with
          dev := polled.dev
          received := w.received ++ if polled.issued then answer.brought else []
          dropped := w.dropped + polled.dropped }
    | .read wanted =>
        let out := usbCdcAcmRead w.dev wanted
        some { w with dev := out.dev, returned := w.returned ++ out.bytes }
    | .getControl => some w
    | .setControl control => some { w with dev := (usbCdcAcmSetControl w.dev control).1 }
    | .reset => some { w with dev := (usbCdcAcmReset w.dev).1, received := [], returned := [] }

/-- A port just started. Kind: D -/
def AcmWorld.started (m : ℕ) : AcmWorld := ⟨.started m, [], [], 0⟩

/-- What holds after any calls. Kind: D -/
structure Queued (m : ℕ) (w : AcmWorld) : Prop where
  packet_eq : w.dev.bulkInMaxPacket = m
  bits : w.dev.controlBits &&& efiSerialInputBufferEmpty = 0
  /-- Octets come in by a transfer and go out by a `Read`, in order. -/
  account : w.received = w.returned ++ w.dev.queue
  dropped_eq : w.dropped = 0

lemma queued_started (m : ℕ) : Queued m (.started m) := by
  obtain ⟨hring, hpacket, hcontrol⟩ := setControl_spec (.zeroed m)
    (efiSerialDataTerminalReady ||| efiSerialRequestToSend) UInt32.zero_and
  refine ⟨hpacket, hcontrol, ?_, rfl⟩
  change [] = [] ++ (AcmDev.started m).rx.contents
  rw [AcmDev.started, hring, List.nil_append, Ring.contents_of_head_eq _ rfl]

/-- One more call. Kind: L -/
theorem queued_step {m : ℕ} (w : AcmWorld) (c : AcmCall m) (t : AcmWorld) (hw : Queued m w)
    (h : (acm m).step w c = some t) : Queued m t := by
  obtain ⟨rfl, hbits, haccount, hdropped⟩ := hw
  cases c with
  | poll answer =>
      cases h
      obtain ⟨-, hqueue, hnone, hpacket, hcontrol⟩ := poll_spec answer
      refine ⟨hpacket, ?_, ?_, ?_⟩
      · rw [hcontrol]
        exact hbits
      · rw [hqueue, haccount, List.append_assoc]
      · rw [hnone, hdropped]
  | read wanted =>
      cases h
      obtain ⟨hbytes, hqueue, hpacket, hcontrol⟩ := readLoop_spec wanted w.dev
      refine ⟨hpacket, ?_, ?_, hdropped⟩
      · change (readLoop wanted w.dev).2.controlBits &&& _ = 0
        rw [hcontrol]
        exact hbits
      · change w.received =
          w.returned ++ (readLoop wanted w.dev).1 ++ (readLoop wanted w.dev).2.queue
        rw [hbytes, hqueue, List.append_assoc, List.take_append_drop]
        exact haccount
  | getControl =>
      cases h
      exact ⟨rfl, hbits, haccount, hdropped⟩
  | setControl control =>
      cases h
      obtain ⟨hring, hpacket, hcontrol⟩ := setControl_spec w.dev control hbits
      refine ⟨hpacket, hcontrol, ?_, hdropped⟩
      rw [AcmDev.queue, hring]
      exact haccount
  | reset =>
      cases h
      obtain ⟨-, hpacket, hcontrol⟩ :=
        setControl_spec { w.dev with rx := w.dev.rx.clear } w.dev.controlBits hbits
      refine ⟨hpacket, hcontrol, ?_, hdropped⟩
      exact (queue_reset w.dev hbits).symm

/-- **The receive ring is a queue of 4095 octets.** After any calls on a port whose endpoint has
packets of `m` octets: what the transfers have brought since the last `Reset` is what `Read` has
returned since, followed by what is queued; nothing was dropped, ever. A tick issues a transfer iff
`m` of the 4095 cells are free, and queues what that brings behind what is there. `Read` returns the
octets at the front, as many as it wants or as there are, and takes exactly those off the queue; it
succeeds iff as many as it wants are queued. `Reset` empties the queue, and the input buffer is
reported empty iff the queue is.
Source: `SerialIo.c` `UsbCdcAcmPoll`, `UsbCdcAcmRead`, `UsbCdcAcmGetControl`, `UsbCdcAcmReset`
Kind: P -/
theorem receive_ring_refines_fifo (m : ℕ) (calls : List (AcmCall m)) :
    ∃ w, (acm m).run (.started m) calls = some w ∧
      w.received = w.returned ++ w.dev.queue ∧
      w.dropped = 0 ∧
      (∀ answer : BulkAnswer m,
        ((usbCdcAcmPoll w.dev answer).issued = true ↔ m ≤ 4095 - w.dev.queue.length) ∧
        (usbCdcAcmPoll w.dev answer).dev.queue =
          w.dev.queue ++ if (usbCdcAcmPoll w.dev answer).issued then answer.brought else []) ∧
      (∀ wanted, (usbCdcAcmRead w.dev wanted).bytes = w.dev.queue.take wanted ∧
        (usbCdcAcmRead w.dev wanted).dev.queue = w.dev.queue.drop wanted ∧
        ((usbCdcAcmRead w.dev wanted).status = efiSuccess ↔ wanted ≤ w.dev.queue.length)) ∧
      (usbCdcAcmReset w.dev).1.queue = [] ∧
      (usbCdcAcmGetControl w.dev &&& efiSerialInputBufferEmpty ≠ 0 ↔ w.dev.queue = []) := by
  have htotal : ∀ w c, ∃ t, (acm m).step w c = some t := fun w c => by cases c <;> exact ⟨_, rfl⟩
  obtain ⟨w, hw⟩ := (acm m).exists_run_of_total htotal (.started m) calls
  have hinv : Queued m w :=
    (acm m).invariant_of_run (Queued m) queued_step (queued_started m) hw
  refine ⟨w, hw, hinv.account, hinv.dropped_eq, ?_, fun wanted => ?_,
    queue_reset w.dev hinv.bits, getControl_inputBufferEmpty_iff hinv.bits⟩
  · obtain ⟨rfl, -, -, -⟩ := hinv
    exact fun answer => ⟨(poll_spec answer).1, (poll_spec answer).2.1⟩
  · obtain ⟨hbytes, hqueue, -, -⟩ := readLoop_spec wanted w.dev
    exact ⟨hbytes, hqueue, read_success_iff w.dev wanted⟩

end NucBios.Usb
