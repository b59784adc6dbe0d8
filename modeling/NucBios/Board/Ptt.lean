import NucBios.Board.Options

/-!
# The firmware TPM

The TPM of the board is behind a window of registers: a command is written to a buffer in it,
octet by octet, and executed by a write to the start register. Whether anything is behind the
window, and what, is not known before it has been asked. `Device` may answer each read as it likes,
by everything that has happened before.

What the driver does is a list of accesses, the consumption of a setting among them, and power may
be lost after any of them. `executed` is what a TPM makes of the accesses it has seen.

* `pttRun_executed`: one command is staged and executed, whatever the device answers;
* `pttSetup_executed`: what is executed in one boot, and when;
* `clears_add_pending_le`: wherever the accesses are cut off, a request to clear the TPM has led to
  at most one execution of `TPM2_Clear`, and to none if it is still there.
-/

namespace NucBios.Board

open NucBios.Lib NucBios.Uefi NucBios.Setup

/-! ### The window -/

/-- An access to the window, or a setting that was written. Kind: D -/
inductive Access where
  | read8 (address : ℕ)
  | read32 (address : ℕ)
  | write8 (address : ℕ) (value : UInt8)
  | write32 (address : ℕ) (value : UInt32)
  | setOption (name : String) (value : UInt32)
  deriving DecidableEq, Repr

/-- What has happened so far, oldest first. Kind: D -/
abbrev Trace := List Access

/-- What is behind the window: the answer to the read that a trace ends with, and how often the
stopwatch is found running after it was started. Kind: D -/
structure Device where
  answer8 : Trace → UInt8
  answer32 : Trace → UInt32
  patience : Trace → ℕ

/-- `PTT_CRB_BASE`. Kind: D -/
def pttCrbBase : ℕ := 0xFED70000
/-- `PTT_CRB_DATA`. Kind: D -/
def pttCrbData : ℕ := pttCrbBase + 0x80
/-- `PTT_CRB_DATA_SIZE`. Kind: D -/
def pttCrbDataSize : UInt32 := 0xF80

/-- `CRB_CTRL_START`. Kind: D -/
def crbCtrlStart : ℕ := pttCrbBase + 0x0c
/-- `CRB_CTRL_CMD_SIZE`. Kind: D -/
def crbCtrlCmdSize : ℕ := pttCrbBase + 0x18
/-- `CRB_CTRL_CMD_PA_LO`. Kind: D -/
def crbCtrlCmdPaLo : ℕ := pttCrbBase + 0x1c
/-- `CRB_CTRL_CMD_PA_HI`. Kind: D -/
def crbCtrlCmdPaHi : ℕ := pttCrbBase + 0x20
/-- `CRB_CTRL_RSP_SIZE`. Kind: D -/
def crbCtrlRspSize : ℕ := pttCrbBase + 0x24
/-- `CRB_CTRL_RSP_PA_LO`. Kind: D -/
def crbCtrlRspPaLo : ℕ := pttCrbBase + 0x28
/-- `CRB_CTRL_RSP_PA_HI`. Kind: D -/
def crbCtrlRspPaHi : ℕ := pttCrbBase + 0x2c
/-- `CRB_HCMD`. Kind: D -/
def crbHcmd : ℕ := pttCrbBase + 0x40
/-- `CRB_HSTS`. Kind: D -/
def crbHsts : ℕ := pttCrbBase + 0x44

/-! ### The driver -/

/-- The octets of a command, from a place in the buffer on. Kind: D -/
def stageFrom (place : ℕ) : List UInt8 → Trace
  | [] => []
  | c :: cmd => .write8 (pttCrbData + place) c :: stageFrom (place + 1) cmd

/-- Wait for the start register, while the stopwatch is found running `n` times. Kind: D -/
def pollStart (dev : Device) : ℕ → Trace → Bool × Trace
  | n, trace =>
      let asked := trace ++ [.read32 crbCtrlStart]
      if dev.answer32 asked &&& 1 = 0 then (true, asked)
      else match n with
        | 0 => (false, asked)
        | n + 1 => pollStart dev n asked

/-- Source: `mainboard/ptt.c` `ptt_run`
Kind: D -/
def pttRun (dev : Device) (cmd : List UInt8) (trace : Trace) : UInt32 × Trace :=
  let started := trace ++ stageFrom 0 cmd ++ [.write32 crbHcmd 0, .write32 crbCtrlStart 1]
  let (done, polled) := pollStart dev (dev.patience started) started
  if done then
    let t6 := polled ++ [.read8 (pttCrbData + 6)]
    let t7 := t6 ++ [.read8 (pttCrbData + 7)]
    let t8 := t7 ++ [.read8 (pttCrbData + 8)]
    let t9 := t8 ++ [.read8 (pttCrbData + 9)]
    ((dev.answer8 t6).toUInt32 <<< 24 ||| (dev.answer8 t7).toUInt32 <<< 16 |||
      (dev.answer8 t8).toUInt32 <<< 8 ||| (dev.answer8 t9).toUInt32, t9)
  else (0xffffffff, polled)

/-- Source: `mainboard/ptt.c` `ptt_tpm_startup`, `startup_clear`
Kind: D -/
def startupClear : List UInt8 :=
  [0x80, 0x01, 0x00, 0x00, 0x00, 0x0c, 0x00, 0x00, 0x01, 0x44, 0x00, 0x00]

/-- Source: `mainboard/ptt.c` `ptt_tpm_clear`, `clear_cmd`
Kind: D -/
def clearCmd : List UInt8 :=
  [0x80, 0x02, 0x00, 0x00, 0x00, 0x1b, 0x00, 0x00, 0x01, 0x26, 0x40, 0x00, 0x00, 0x0c,
    0x00, 0x00, 0x00, 0x09, 0x40, 0x00, 0x00, 0x09, 0x00, 0x00, 0x00, 0x00, 0x00]

/-- Whether it reports success; `TPM_RC_INITIALIZE` is as good as none.
Source: `mainboard/ptt.c` `ptt_tpm_startup`
Kind: D -/
def pttTpmStartup (dev : Device) (trace : Trace) : Bool × Trace :=
  let (rc, after) := pttRun dev startupClear trace
  (rc == 0 || rc == 0x100, after)

/-- Whether it reports success.
Source: `mainboard/ptt.c` `ptt_tpm_clear`
Kind: D -/
def pttTpmClear (dev : Device) (trace : Trace) : Bool × Trace :=
  let (rc, after) := pttRun dev clearCmd trace
  (rc == 0, after)

/-- The command and response buffers are pointed at the buffer in the window. Kind: D -/
def pointBuffers : Trace :=
  [.write32 crbCtrlCmdSize pttCrbDataSize, .write32 crbCtrlCmdPaLo (UInt32.ofNat pttCrbData),
    .write32 crbCtrlCmdPaHi 0, .write32 crbCtrlRspSize pttCrbDataSize,
    .write32 crbCtrlRspPaLo (UInt32.ofNat pttCrbData), .write32 crbCtrlRspPaHi 0]

variable (opts : OptionBackend)

/-- The request to clear, once the TPM is started; `settable` is whether the setting can be
written. Kind: D -/
def serveRequest (dev : Device) (settable : Bool) (vars : Variables) (trace : Trace) : Trace :=
  if opts.getUintOption vars "tpm_clear" 0 ≠ 0 then
    if settable then (pttTpmClear dev (trace ++ [.setOption "tpm_clear" 0])).2 else trace
  else trace

/-- What it does, and whether `ptt_enabled` is set, which is whether a `TPM2` table is written.
Source: `mainboard/ptt.c` `ptt_setup`
Kind: D -/
def pttSetup (dev : Device) (settable : Bool) (vars : Variables) : Bool × Trace :=
  if opts.getUintOption vars "tpm_enable" 1 = 0 then (false, [])
  else
    let probed := [.read32 crbHsts]
    if dev.answer32 probed = 0xffffffff then (false, probed)
    else
      let readBack := probed ++ pointBuffers ++ [.read32 crbCtrlCmdSize]
      -- the messages read the registers they print
      if dev.answer32 readBack ≠ pttCrbDataSize then
        (false, readBack ++ [.read32 crbCtrlCmdSize])
      else
        let started := (pttTpmStartup dev (readBack ++ [.read32 crbHsts])).2
        (true, serveRequest opts dev settable vars started)

/-! ### What a TPM makes of it -/

/-- The octets in the buffer as far as they are known, and the commands executed. A command whose
octets are not all known is `none`. Kind: D -/
structure Staging where
  buffer : ℕ → Option UInt8
  commands : List (Option (List UInt8))

/-- The command in the buffer: its third to sixth octet are its size. Kind: D -/
def commandOf (buffer : ℕ → Option UInt8) : Option (List UInt8) := do
  let size := (((← buffer 2).toNat * 256 + (← buffer 3).toNat) * 256 + (← buffer 4).toNat) * 256 +
    (← buffer 5).toNat
  (List.range size).mapM buffer

/-- One access. The start of a command is also the end of the buffer: it is the TPM's then.
Kind: D -/
def Staging.step (s : Staging) : Access → Staging
  | .write8 address value =>
      if pttCrbData ≤ address then
        { s with buffer := Function.update s.buffer (address - pttCrbData) (some value) }
      else s
  | .write32 address value =>
      if address = crbCtrlStart ∧ value &&& 1 = 1 then
        ⟨fun _ => none, s.commands ++ [commandOf s.buffer]⟩
      else s
  | .read8 _ | .read32 _ | .setOption _ _ => s

/-- Accesses, one after the other. Kind: D -/
def Staging.run (s : Staging) (trace : Trace) : Staging := trace.foldl Staging.step s

/-- The commands executed. Kind: D -/
def executed (trace : Trace) : List (Option (List UInt8)) :=
  (Staging.run ⟨fun _ => none, []⟩ trace).commands

lemma Staging.run_append (s : Staging) (trace trace' : Trace) :
    s.run (trace ++ trace') = (s.run trace).run trace' :=
  List.foldl_append

/-- Commands are only added. Kind: L -/
theorem Staging.commands_of_cut (s : Staging) (trace : Trace) :
    s.commands <+: (s.run trace).commands := by
  induction trace generalizing s with
  | nil => exact List.prefix_rfl
  | cons access trace ih =>
      refine List.IsPrefix.trans ?_ (ih (s.step access))
      cases access with
      | read8 address => exact List.prefix_rfl
      | read32 address => exact List.prefix_rfl
      | setOption name value => exact List.prefix_rfl
      | write8 address value =>
          rw [Staging.step]
          split <;> exact List.prefix_rfl
      | write32 address value =>
          rw [Staging.step]
          split
          · exact List.prefix_append _ _
          · exact List.prefix_rfl

/-- What has been executed when the accesses are cut off. Kind: L -/
theorem executed_of_cut {trace trace' : Trace} (h : trace <+: trace') :
    executed trace <+: executed trace' := by
  obtain ⟨rest, rfl⟩ := h
  rw [executed, executed, Staging.run_append]
  exact Staging.commands_of_cut _ rest

/-- An access that starts nothing. Kind: D -/
def Access.Quiet : Access → Prop
  | .write32 address _ => address ≠ crbCtrlStart
  | _ => True

/-- Quiet accesses execute nothing. Kind: L -/
theorem Staging.commands_of_quiet {s : Staging} {trace : Trace}
    (h : ∀ access ∈ trace, access.Quiet) : (s.run trace).commands = s.commands := by
  induction trace generalizing s with
  | nil => rfl
  | cons access trace ih =>
      rw [List.forall_mem_cons] at h
      refine (ih h.2).trans ?_
      cases access with
      | read8 address => rfl
      | read32 address => rfl
      | setOption name value => rfl
      | write8 address value =>
          rw [Staging.step]
          split <;> rfl
      | write32 address value =>
          rw [Staging.step, if_neg fun hstart => h.1 hstart.1]

lemma executed_append_of_quiet (trace : Trace) {trace' : Trace}
    (h : ∀ access ∈ trace', access.Quiet) : executed (trace ++ trace') = executed trace := by
  rw [executed, Staging.run_append, Staging.commands_of_quiet h, executed]

lemma executed_concat_read32 (trace : Trace) (address : ℕ) :
    executed (trace ++ [.read32 address]) = executed trace :=
  executed_append_of_quiet trace (List.forall_mem_singleton.mpr trivial)

lemma executed_concat_setOption (trace : Trace) (name : String) (value : UInt32) :
    executed (trace ++ [.setOption name value]) = executed trace :=
  executed_append_of_quiet trace (List.forall_mem_singleton.mpr trivial)

/-- Where a command is staged the buffer holds it. By induction on the command. Kind: L -/
theorem Staging.buffer_stageFrom (s : Staging) (place : ℕ) (cmd : List UInt8) :
    (∀ i (hi : i < cmd.length), (s.run (stageFrom place cmd)).buffer (place + i) = some cmd[i]) ∧
      ∀ i < place, (s.run (stageFrom place cmd)).buffer i = s.buffer i := by
  induction cmd generalizing s place with
  | nil => exact ⟨fun i hi => absurd hi (Nat.not_lt_zero i), fun i _ => rfl⟩
  | cons c cmd ih =>
      have hstep : s.step (.write8 (pttCrbData + place) c) =
          { s with buffer := Function.update s.buffer place (some c) } := by
        rw [Staging.step, if_pos (Nat.le_add_right _ _), Nat.add_sub_cancel_left]
      have hrun : s.run (stageFrom place (c :: cmd)) =
          Staging.run { s with buffer := Function.update s.buffer place (some c) }
            (stageFrom (place + 1) cmd) := by
        rw [stageFrom, Staging.run, List.foldl_cons, hstep, Staging.run]
      obtain ⟨hlater, hbefore⟩ :=
        ih { s with buffer := Function.update s.buffer place (some c) } (place + 1)
      rw [hrun]
      refine ⟨fun i hi => ?_, fun i hi => ?_⟩
      · cases i with
        | zero =>
            exact (hbefore place (Nat.lt_succ_self place)).trans (Function.update_self _ _ _)
        | succ i =>
            have h := hlater i (Nat.lt_of_succ_lt_succ hi)
            rwa [Nat.add_assoc, Nat.add_comm 1 i] at h
      · rw [hbefore i (Nat.lt_succ_of_lt hi)]
        exact Function.update_of_ne (Nat.ne_of_lt hi) _ _

/-- The size in a command is its size. Kind: D -/
def WellSized (cmd : List UInt8) : Prop :=
  6 ≤ cmd.length ∧ (((cmd.getD 2 0).toNat * 256 + (cmd.getD 3 0).toNat) * 256 +
    (cmd.getD 4 0).toNat) * 256 + (cmd.getD 5 0).toNat = cmd.length

instance (cmd : List UInt8) : Decidable (WellSized cmd) :=
  inferInstanceAs (Decidable (_ ∧ _))

lemma commandOf_of_buffer {buffer : ℕ → Option UInt8} {cmd : List UInt8}
    (hbuffer : ∀ i (hi : i < cmd.length), buffer i = some cmd[i]) (hsize : WellSized cmd) :
    commandOf buffer = some cmd := by
  have hoctet : ∀ i < 6, buffer i = some (cmd.getD i 0) := by
    intro i hi
    have hlt : i < cmd.length := hi.trans_le hsize.1
    rw [hbuffer i hlt, List.getD_eq_getElem?_getD, List.getElem?_eq_getElem hlt, Option.getD_some]
  rw [commandOf, hoctet 2 (by omega), hoctet 3 (by omega), hoctet 4 (by omega),
    hoctet 5 (by omega)]
  simp only [Option.bind_eq_bind, Option.bind_some, hsize.2]
  apply mapM_eq_some_of_forall₂
  apply List.forall₂_iff_get.mpr
  refine ⟨List.length_range, fun i hi hi' => ?_⟩
  simpa using hbuffer i hi'

/-! ### One command -/

/-- An access that leaves the settings as they are. Kind: D -/
def Access.Plain : Access → Prop
  | .setOption _ _ => False
  | _ => True

/-- An access that starts nothing and writes no setting. Kind: D -/
def Access.Idle (access : Access) : Prop := access.Quiet ∧ access.Plain

/-- Polling only reads, and it comes to an end. Kind: L -/
theorem pollStart_trace (dev : Device) (n : ℕ) (trace : Trace) :
    ∃ polls, (pollStart dev n trace).2 = trace ++ polls ∧ ∀ access ∈ polls, access.Idle := by
  have hread : ∀ access ∈ [Access.read32 crbCtrlStart], access.Idle :=
    List.forall_mem_singleton.mpr ⟨trivial, trivial⟩
  induction n generalizing trace with
  | zero =>
      rw [pollStart]
      split <;> exact ⟨_, rfl, hread⟩
  | succ n ih =>
      rw [pollStart]
      split
      · exact ⟨_, rfl, hread⟩
      · obtain ⟨polls, hpolls, hidle⟩ := ih (trace ++ [.read32 crbCtrlStart])
        refine ⟨[.read32 crbCtrlStart] ++ polls, by rw [hpolls, List.append_assoc], ?_⟩
        rw [List.forall_mem_append]
        exact ⟨hread, hidle⟩

/-- The accesses of one command: it is staged and started, and then there are reads. Kind: L -/
theorem pttRun_trace (dev : Device) (cmd : List UInt8) (trace : Trace) :
    ∃ reads, (pttRun dev cmd trace).2 =
        trace ++ stageFrom 0 cmd ++ [.write32 crbHcmd 0, .write32 crbCtrlStart 1] ++ reads ∧
      ∀ access ∈ reads, access.Idle := by
  obtain ⟨polls, hpolls, hidle⟩ := pollStart_trace dev
    (dev.patience (trace ++ stageFrom 0 cmd ++ [.write32 crbHcmd 0, .write32 crbCtrlStart 1]))
    (trace ++ stageFrom 0 cmd ++ [.write32 crbHcmd 0, .write32 crbCtrlStart 1])
  simp only [pttRun]
  split
  · refine ⟨polls ++ [.read8 (pttCrbData + 6), .read8 (pttCrbData + 7), .read8 (pttCrbData + 8),
      .read8 (pttCrbData + 9)], ?_, ?_⟩
    · rw [hpolls]
      simp only [List.append_assoc, List.cons_append, List.nil_append]
    · rw [List.forall_mem_append]
      refine ⟨hidle, ?_⟩
      simp [Access.Idle, Access.Quiet, Access.Plain]
  · exact ⟨polls, hpolls, hidle⟩

lemma idle_stageFrom (place : ℕ) (cmd : List UInt8) :
    ∀ access ∈ stageFrom place cmd, access.Idle := by
  induction cmd generalizing place with
  | nil => exact fun access h => absurd h List.not_mem_nil
  | cons c cmd ih =>
      rw [stageFrom, List.forall_mem_cons]
      exact ⟨⟨trivial, trivial⟩, ih (place + 1)⟩

/-- Whatever the device answers, and however long it takes: the command is executed, once, as it
was given. Kind: P -/
theorem pttRun_executed (dev : Device) {cmd : List UInt8} (hsize : WellSized cmd) (trace : Trace) :
    executed (pttRun dev cmd trace).2 = executed trace ++ [some cmd] := by
  obtain ⟨reads, hreads, hidle⟩ := pttRun_trace dev cmd trace
  set s := Staging.run ⟨fun _ => none, []⟩ trace
  have hstaged := (s.buffer_stageFrom 0 cmd).1
  simp only [Nat.zero_add] at hstaged
  have hcommands : (s.run (stageFrom 0 cmd)).commands = s.commands :=
    Staging.commands_of_quiet fun access h => (idle_stageFrom 0 cmd access h).1
  rw [hreads, executed_append_of_quiet _ fun access h => (hidle access h).1, executed,
    Staging.run_append, Staging.run_append]
  calc _ = (s.run (stageFrom 0 cmd)).commands ++ [commandOf (s.run (stageFrom 0 cmd)).buffer] := rfl
    _ = executed trace ++ [some cmd] := by
        rw [hcommands, commandOf_of_buffer hstaged hsize]
        rfl

lemma plain_pttRun (dev : Device) (cmd : List UInt8) (trace : Trace) :
    ∃ more, (pttRun dev cmd trace).2 = trace ++ more ∧ ∀ access ∈ more, access.Plain := by
  obtain ⟨reads, hreads, hidle⟩ := pttRun_trace dev cmd trace
  refine ⟨stageFrom 0 cmd ++ [.write32 crbHcmd 0, .write32 crbCtrlStart 1] ++ reads, ?_, ?_⟩
  · rw [hreads]
    simp only [List.append_assoc]
  · rw [List.forall_mem_append, List.forall_mem_append]
    refine ⟨⟨fun access h => (idle_stageFrom 0 cmd access h).2, ?_⟩,
      fun access h => (hidle access h).2⟩
    simp [Access.Plain]

/-! ### One boot -/

/-- The settings once the accesses have happened. Kind: D -/
def Access.store (vars : Variables) : Access → Variables
  | .setOption name value => opts.setUintOption vars name value
  | _ => vars

@[inherit_doc Access.store]
def stored (vars : Variables) (trace : Trace) : Variables := trace.foldl (Access.store opts) vars

variable {opts}

lemma stored_append (vars : Variables) (trace trace' : Trace) :
    stored opts vars (trace ++ trace') = stored opts (stored opts vars trace) trace' :=
  List.foldl_append

lemma stored_of_plain {vars : Variables} {trace : Trace} (h : ∀ access ∈ trace, access.Plain) :
    stored opts vars trace = vars := by
  induction trace with
  | nil => rfl
  | cons access trace ih =>
      rw [List.forall_mem_cons] at h
      cases access with
      | setOption name value => exact absurd h.1 id
      | read8 address => exact ih h.2
      | read32 address => exact ih h.2
      | write8 address value => exact ih h.2
      | write32 address value => exact ih h.2

/-- There is something behind the window: it is decoded, and it keeps what is written to it.
Kind: D -/
def Device.Live (dev : Device) : Prop :=
  dev.answer32 [.read32 crbHsts] ≠ 0xffffffff ∧
    dev.answer32 ([.read32 crbHsts] ++ pointBuffers ++ [.read32 crbCtrlCmdSize]) = pttCrbDataSize

instance (dev : Device) : Decidable dev.Live := inferInstanceAs (Decidable (_ ∧ _))

/-- What happens before the request to clear is looked at. Kind: D -/
def startedTrace (dev : Device) : Trace :=
  (pttTpmStartup dev ([.read32 crbHsts] ++ pointBuffers ++ [.read32 crbCtrlCmdSize] ++
    [.read32 crbHsts])).2

lemma wellSized_startupClear : WellSized startupClear := by decide

lemma wellSized_clearCmd : WellSized clearCmd := by decide

lemma executed_startedTrace (dev : Device) : executed (startedTrace dev) = [some startupClear] := by
  rw [startedTrace, pttTpmStartup, pttRun_executed dev wellSized_startupClear,
    executed_concat_read32]
  rfl

lemma plain_startedTrace (dev : Device) : ∀ access ∈ startedTrace dev, access.Plain := by
  obtain ⟨more, hmore, hplain⟩ := plain_pttRun dev startupClear
    ([.read32 crbHsts] ++ pointBuffers ++ [.read32 crbCtrlCmdSize] ++ [.read32 crbHsts])
  rw [startedTrace, pttTpmStartup, hmore, List.forall_mem_append]
  exact ⟨by simp [pointBuffers, Access.Plain], hplain⟩

variable (opts) in
/-- There is a request to clear. Kind: D -/
def pending (vars : Variables) : Bool := opts.getUintOption vars "tpm_clear" 0 != 0

/-- The setup of a live device. Kind: L -/
theorem pttSetup_of_live {dev : Device} {vars : Variables} (settable : Bool)
    (henable : opts.getUintOption vars "tpm_enable" 1 ≠ 0) (hlive : dev.Live) :
    pttSetup opts dev settable vars =
      (true, serveRequest opts dev settable vars (startedTrace dev)) := by
  rw [pttSetup, if_neg henable]
  simp only
  rw [if_neg hlive.1, if_neg (not_not.mpr hlive.2)]
  rfl

/-- Without a live device, or with the TPM disabled, nothing is executed, no setting is touched,
and there is no table. Kind: L -/
theorem pttSetup_of_not_live {dev : Device} {vars : Variables} (settable : Bool)
    (h : ¬ (opts.getUintOption vars "tpm_enable" 1 ≠ 0 ∧ dev.Live)) :
    (pttSetup opts dev settable vars).1 = false ∧
      ∀ access ∈ (pttSetup opts dev settable vars).2, access.Idle := by
  rw [pttSetup]
  split
  · exact ⟨rfl, by simp⟩
  · next henable =>
      simp only
      split
      · exact ⟨rfl, by simp [Access.Idle, Access.Quiet, Access.Plain]⟩
      · next hdecoded =>
          rw [if_pos fun hback => h ⟨henable, hdecoded, hback⟩]
          refine ⟨rfl, ?_⟩
          simp only [pointBuffers, List.cons_append, List.nil_append, List.forall_mem_cons]
          simp [Access.Idle, Access.Quiet, Access.Plain, crbCtrlStart, crbCtrlCmdSize,
            crbCtrlCmdPaLo, crbCtrlCmdPaHi, crbCtrlRspSize, crbCtrlRspPaLo, crbCtrlRspPaHi]

/-- Whether there is a `TPM2` table. Kind: L -/
theorem pttSetup_enabled (opts : OptionBackend) (dev : Device) (settable : Bool)
    (vars : Variables) :
    (pttSetup opts dev settable vars).1 =
      decide (opts.getUintOption vars "tpm_enable" 1 ≠ 0 ∧ dev.Live) := by
  by_cases h : opts.getUintOption vars "tpm_enable" 1 ≠ 0 ∧ dev.Live
  · rw [pttSetup_of_live settable h.1 h.2, decide_eq_true h]
  · rw [(pttSetup_of_not_live settable h).1, decide_eq_false h]

/-- What a boot executes: nothing without a live device, and else the startup, and after it the
clear if it is wanted and the request could be taken back. Kind: L -/
theorem pttSetup_executed (opts : OptionBackend) (dev : Device) (settable : Bool)
    (vars : Variables) :
    executed (pttSetup opts dev settable vars).2 =
      if opts.getUintOption vars "tpm_enable" 1 ≠ 0 ∧ dev.Live then
        some startupClear :: if pending opts vars ∧ settable then [some clearCmd] else []
      else [] := by
  split
  · next h =>
      rw [pttSetup_of_live settable h.1 h.2]
      simp only [serveRequest, pending, bne_iff_ne]
      by_cases hpending : opts.getUintOption vars "tpm_clear" 0 ≠ 0
      · cases settable with
        | false => simp [hpending, executed_startedTrace]
        | true =>
            simp only [hpending, ne_eq, not_false_eq_true, if_true, true_and, pttTpmClear]
            rw [pttRun_executed dev wellSized_clearCmd, executed_concat_setOption,
              executed_startedTrace]
            rfl
      · simp [hpending, executed_startedTrace]
  · next h =>
      have hidle := (pttSetup_of_not_live settable h).2
      exact executed_append_of_quiet [] fun access ha => (hidle access ha).1

/-! ### Cut off anywhere -/

/-- How often the TPM was cleared. Kind: D -/
def clears (trace : Trace) : ℕ := (executed trace).count (some clearCmd)

lemma clears_le_of_cut {trace trace' : Trace} (h : trace <+: trace') :
    clears trace ≤ clears trace' :=
  (executed_of_cut h).sublist.count_le _

/-- Nothing is cleared, and no setting touched, before the TPM is started. Kind: L -/
theorem of_cut_plain (vars : Variables) {trace part : Trace} (hpart : part <+: trace)
    (hclears : clears trace = 0) (hplain : ∀ access ∈ trace, access.Plain) :
    clears part = 0 ∧ stored opts vars part = vars := by
  have hle := clears_le_of_cut hpart
  exact ⟨by omega, stored_of_plain fun access h => hplain access (hpart.subset h)⟩

lemma clears_startedTrace (dev : Device) : clears (startedTrace dev) = 0 := by
  rw [clears, executed_startedTrace]
  decide

/-- Where the request is consumed, no more than one clear follows, and where it is not, none.
Kind: L -/
theorem serveRequest_cut (dev : Device) (vars : Variables) {part : Trace}
    (h : part <+: (pttTpmClear dev (startedTrace dev ++ [.setOption "tpm_clear" 0])).2) :
    clears part = 0 ∧ stored opts vars part = vars ∨
      clears part ≤ 1 ∧ stored opts vars part = opts.setUintOption vars "tpm_clear" 0 := by
  set consumed := startedTrace dev ++ [Access.setOption "tpm_clear" 0]
  have hstarted := plain_startedTrace dev
  have hconsumed : stored opts vars consumed = opts.setUintOption vars "tpm_clear" 0 := by
    rw [stored_append, stored_of_plain hstarted]
    rfl
  obtain ⟨more, hmore, hplain⟩ := plain_pttRun dev clearCmd consumed
  have hclears : clears part ≤ 1 := by
    refine (clears_le_of_cut h).trans ?_
    rw [clears, pttTpmClear, pttRun_executed dev wellSized_clearCmd, executed_concat_setOption,
      executed_startedTrace]
    decide
  rw [pttTpmClear, hmore] at h
  rcases List.prefix_or_prefix_of_prefix h (List.prefix_append consumed more) with
    hbefore | ⟨rest, rfl⟩
  · rcases List.prefix_concat_iff.mp hbefore with rfl | hbefore
    · exact .inr ⟨hclears, hconsumed⟩
    · exact .inl (of_cut_plain vars hbefore (clears_startedTrace dev) hstarted)
  · have hrest : rest <+: more := (List.prefix_append_right_inj consumed).mp h
    refine .inr ⟨hclears, ?_⟩
    rw [stored_append, stored_of_plain fun access ha => hplain access (hrest.subset ha), hconsumed]

lemma le_of_kept {vars : Variables} {part : Trace}
    (h : clears part = 0 ∧ stored opts vars part = vars) :
    clears part + (pending opts (stored opts vars part)).toNat ≤ (pending opts vars).toNat ∧
      (stored opts vars part = vars ∨
        stored opts vars part = opts.setUintOption vars "tpm_clear" 0) := by
  rw [h.1, h.2, Nat.zero_add]
  exact ⟨le_rfl, .inl rfl⟩

/-- Wherever power is lost: a request is there still and nothing was cleared for it, or it is gone
and the TPM was cleared at most once. Kind: P -/
theorem clears_add_pending_le (opts : OptionBackend) (dev : Device) (settable : Bool)
    (vars : Variables) {part : Trace} (h : part <+: (pttSetup opts dev settable vars).2) :
    clears part + (pending opts (stored opts vars part)).toNat ≤ (pending opts vars).toNat ∧
      (stored opts vars part = vars ∨
        stored opts vars part = opts.setUintOption vars "tpm_clear" 0) := by
  by_cases hlive : opts.getUintOption vars "tpm_enable" 1 ≠ 0 ∧ dev.Live
  · have hstarted : part <+: startedTrace dev → clears part = 0 ∧ stored opts vars part = vars :=
      fun hpart => of_cut_plain vars hpart (clears_startedTrace dev) (plain_startedTrace dev)
    rw [pttSetup_of_live settable hlive.1 hlive.2] at h
    simp only [serveRequest] at h
    by_cases hrequest : opts.getUintOption vars "tpm_clear" 0 ≠ 0
    · rw [if_pos hrequest] at h
      cases settable with
      | false => exact le_of_kept (hstarted h)
      | true =>
          rcases serveRequest_cut dev vars h with hkept | ⟨hclears, hvars⟩
          · exact le_of_kept hkept
          · have hpending : pending opts vars = true := by simpa [pending] using hrequest
            have hconsumed : pending opts (opts.setUintOption vars "tpm_clear" 0) = false := by
              simp [pending]
            rw [hvars, hconsumed, hpending]
            exact ⟨hclears, .inr rfl⟩
    · rw [if_neg hrequest] at h
      exact le_of_kept (hstarted h)
  · have hidle := (pttSetup_of_not_live settable hlive).2
    have hclears : clears (pttSetup opts dev settable vars).2 = 0 := by
      rw [clears, pttSetup_executed, if_neg hlive]
      rfl
    exact le_of_kept (of_cut_plain vars h hclears fun access ha => (hidle access ha).2)

/-- No other setting is touched. Kind: L -/
theorem getUintOption_stored (opts : OptionBackend) (dev : Device) (settable : Bool)
    {vars : Variables} {part : Trace} (h : part <+: (pttSetup opts dev settable vars).2)
    {name : String} (hname : optText name ≠ optText "tpm_clear") (fallback : UInt32) :
    opts.getUintOption (stored opts vars part) name fallback =
      opts.getUintOption vars name fallback := by
  rcases (clears_add_pending_le opts dev settable vars h).2 with hkept | hconsumed
  · rw [hkept]
  · rw [hconsumed]
    exact OptionBackend.getUintOption_congr (OptionBackend.get_setUintOption_of_ne hname 0) fallback

end NucBios.Board
