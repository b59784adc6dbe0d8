import NucBios.Uefi.Base

/-!
# Applying the stored IPv4 policy to the NIC

`EthConfigDxe` reads the `EthCfg` variable once per boot and pushes it into the NIC's
`EFI_IP4_CONFIG2_PROTOCOL`: the policy first, then the manual address with its asynchronous wait,
then gateway and DNS servers, best effort. The model carries the protocol's four data items through
`applyStaticConfig` and records what every service answers, so that a run is a function of the
variable, of the answers and of the items before.

Of the protocol two things are assumed: a `SetData` that fails stores nothing and one that succeeds
stores what it is given, and a policy that is set again leaves the other items alone. What a
*changed* policy does to them is left open (`Ip4Config2.onPolicyChange`), and so is the dotted-quad
arithmetic of `NetLib`, which is not part of this package.

* `applyStaticConfig_eq`: the four ways a run ends, and the items each leaves behind.
* `failed_apply_keeps_nic_iff`: an error leaves the NIC as it was, unless the policy was switched
  and a later step failed. The policy is not switched back.
* `applied_items_eq_iff`: two runs from different static configurations end with the same address;
  gateway and DNS list agree where the variable names them or they agreed before.
* `applyConfig_stable`: once a boot has applied the variable, no later boot changes the items,
  whatever fails then.
-/

namespace NucBios.Ethernet

open Uefi

/-! ### The variable -/

/-- A dotted-quad field of `EthCfg` as the code reads it, up to its NUL.
Source: `NucEthConfig.h` `NUC_ETH_IP4_STR_SIZE`
Kind: D -/
structure Ip4Text where
  chars : List UInt16
  fits : chars.length < 16
  noNul : ∀ c ∈ chars, c ≠ 0

/-- `Field[NUC_ETH_IP4_STR_SIZE - 1] = L'\0'`, and what is then before the first NUL.
Source: `EthConfigDxe.c` `ReadConfigVariable`
Kind: D -/
def Ip4Text.ofField (field : Vector UInt16 16) : Ip4Text where
  chars := (field.toList.take 15).takeWhile (· ≠ 0)
  fits := by
    have h := (List.takeWhile_prefix (l := field.toList.take 15) fun c => decide (c ≠ 0)).length_le
    rw [List.length_take] at h
    omega
  noNul := fun c hc => of_decide_eq_true (List.all_eq_true.mp List.all_takeWhile c hc)

/-- `NUC_ETH_CONFIG`, without the report-only `MacAddress`.
Source: `NucEthConfig.h`
Kind: D -/
structure NucEthConfig (Field : Type) where
  dhcpEnabled : Bool
  ip4Address : Field
  ip4SubnetMask : Field
  ip4Gateway : Field
  ip4Dns1 : Field
  ip4Dns2 : Field

/-- What `GetVariable` answers: status, size and the octets it stored. Kind: D -/
structure VariableRead where
  status : EfiStatus
  size : ℕ
  content : NucEthConfig (Vector UInt16 16)

/-- `sizeof (NUC_ETH_CONFIG)`: the flag, 18 and five times 16 `CHAR16`s, packed. Kind: D -/
def sizeofNucEthConfig : ℕ := 1 + 2 * 18 + 5 * (2 * 16)

/-- `none` stands for `EFI_NOT_FOUND`.
Source: `EthConfigDxe.c` `ReadConfigVariable`
Kind: D -/
def readConfigVariable (v : VariableRead) : Option (NucEthConfig Ip4Text) :=
  if efiError v.status ∨ v.size ≠ sizeofNucEthConfig then none
  else some
    { dhcpEnabled := v.content.dhcpEnabled
      ip4Address := .ofField v.content.ip4Address
      ip4SubnetMask := .ofField v.content.ip4SubnetMask
      ip4Gateway := .ofField v.content.ip4Gateway
      ip4Dns1 := .ofField v.content.ip4Dns1
      ip4Dns2 := .ofField v.content.ip4Dns2 }

/-! ### Addresses -/

/-- `EFI_IPv4_ADDRESS`, in network order. Kind: D -/
structure Ip4Address where
  a : UInt8
  b : UInt8
  c : UInt8
  d : UInt8
  deriving DecidableEq, Repr

/-- `NTOHL` of the address copied into an `IP4_ADDR`. Kind: D -/
def ntohl (ip : Ip4Address) : UInt32 :=
  (ip.a.toUInt32 <<< 24) ||| (ip.b.toUInt32 <<< 16) ||| (ip.c.toUInt32 <<< 8) ||| ip.d.toUInt32

/-- `IP4_MASK_NUM`, what `NetGetMaskLength` answers for a mask with holes. Kind: D -/
def ip4MaskNum : ℤ := 33

/-- The functions of `NetLib` the driver calls. Kind: D -/
structure NetLib where
  /-- `NetLibStrToIp4`, `none` for an error. -/
  strToIp4 : List UInt16 → Option Ip4Address
  getMaskLength : UInt32 → ℤ
  ip4IsUnicast : UInt32 → UInt32 → Bool

/-- Source: `EthConfigDxe.c` `ParseIp4Field`
Kind: D -/
def parseIp4Field (lib : NetLib) (string : Ip4Text) : Except EfiStatus Ip4Address :=
  if string.chars = [] then .error efiNotFound
  else
    match lib.strToIp4 string.chars with
    | none => .error efiInvalidParameter
    | some ip => .ok ip

/-! ### The NIC's configuration -/

inductive Policy where
  | static
  | dhcp
  deriving DecidableEq, Repr

/-- `EFI_IP4_CONFIG2_MANUAL_ADDRESS`. Kind: D -/
structure ManualAddress where
  address : Ip4Address
  subnetMask : Ip4Address
  deriving DecidableEq, Repr

/-- The data items of `EFI_IP4_CONFIG2_PROTOCOL` that `SetData` writes here. Kind: D -/
@[ext]
structure NicConfig where
  policy : Policy
  manualAddress : Option ManualAddress
  gateway : List Ip4Address
  dnsServer : List Ip4Address
  deriving DecidableEq, Repr

/-- A protocol instance, by what a change of policy makes of the other items. Kind: D -/
structure Ip4Config2 where
  onPolicyChange : Policy → NicConfig → NicConfig

/-- A successful `SetData (Ip4Config2DataTypePolicy)`. Kind: D -/
def Ip4Config2.setPolicy (ip4Cfg2 : Ip4Config2) (policy : Policy) (nic : NicConfig) : NicConfig :=
  if nic.policy = policy then nic else { ip4Cfg2.onPolicyChange policy nic with policy := policy }

@[simp] theorem policy_setPolicy (ip4Cfg2 : Ip4Config2) (policy : Policy) (nic : NicConfig) :
    (ip4Cfg2.setPolicy policy nic).policy = policy := by
  unfold Ip4Config2.setPolicy
  by_cases h : nic.policy = policy
  · rw [if_pos h, h]
  · rw [if_neg h]

theorem setPolicy_eq_self_iff (ip4Cfg2 : Ip4Config2) (policy : Policy) (nic : NicConfig) :
    ip4Cfg2.setPolicy policy nic = nic ↔ nic.policy = policy := by
  constructor
  · intro h
    rw [← h, policy_setPolicy]
  · exact fun h => if_pos h

/-! ### One run -/

/-- What the services answer during one run of `ApplyStaticConfig`. Kind: D -/
structure StaticAnswers where
  setPolicy : EfiStatus
  createTimeoutEvent : EfiStatus
  createSetAddressEvent : EfiStatus
  registerDataNotify : EfiStatus
  setManualAddress : EfiStatus
  /-- `IsAddressOk`, each time the wait reads it before the timer fires. -/
  isAddressOk : List Bool
  setGateway : EfiStatus
  setDnsServer : EfiStatus

/-- The wait after `EFI_NOT_READY`, from there on: the timer fires when the reads are over.
Source: `EthConfigDxe.c` `ApplyStaticConfig`
Kind: D -/
def waitForAddress : List Bool → EfiStatus
  | [] => efiNotReady
  | true :: _ => efiSuccess
  | false :: rest => waitForAddress rest

/-- `Status` after the manual address was set and waited for. Kind: D -/
def StaticAnswers.manualAddressStatus (s : StaticAnswers) : EfiStatus :=
  if s.setManualAddress = efiNotReady then waitForAddress s.isAddressOk else s.setManualAddress

/-- The address and mask the first two checks let through; `none` is `EFI_INVALID_PARAMETER`.
Source: `EthConfigDxe.c` `ApplyStaticConfig`
Kind: D -/
def staticAddress (lib : NetLib) (config : NucEthConfig Ip4Text) : Option ManualAddress :=
  match parseIp4Field lib config.ip4Address, parseIp4Field lib config.ip4SubnetMask with
  | .ok address, .ok mask =>
    if lib.getMaskLength (ntohl mask) = 0 ∨ ip4MaskNum ≤ lib.getMaskLength (ntohl mask) ∨
        lib.ip4IsUnicast (ntohl address) (ntohl mask) = false then
      none
    else some ⟨address, mask⟩
  | _, _ => none

/-- The gateway, if it parses and is a host address under the mask. Kind: D -/
def usableGateway (lib : NetLib) (config : NucEthConfig Ip4Text) (mask : Ip4Address) :
    Option Ip4Address :=
  match parseIp4Field lib config.ip4Gateway with
  | .ok gateway => if lib.ip4IsUnicast (ntohl gateway) (ntohl mask) then some gateway else none
  | .error _ => none

/-- `Dns[0 .. DnsCount - 1]`: `Ip4Dns1`, then `Ip4Dns2`, each if it parses. Kind: D -/
def usableServers (lib : NetLib) (config : NucEthConfig Ip4Text) : List Ip4Address :=
  [config.ip4Dns1, config.ip4Dns2].filterMap fun field => (parseIp4Field lib field).toOption

def setGateway (lib : NetLib) (s : StaticAnswers) (config : NucEthConfig Ip4Text)
    (mask : Ip4Address) (nic : NicConfig) : NicConfig :=
  match usableGateway lib config mask with
  | some gateway => if efiError s.setGateway then nic else { nic with gateway := [gateway] }
  | none => nic

def setDnsServer (lib : NetLib) (s : StaticAnswers) (config : NucEthConfig Ip4Text)
    (nic : NicConfig) : NicConfig :=
  if 0 < (usableServers lib config).length then
    if efiError s.setDnsServer then nic else { nic with dnsServer := usableServers lib config }
  else nic

/-- The status returned and the items left behind. The events are closed on every path and say
nothing about the items; the status of the two optional `SetData` calls is dropped.
Source: `EthConfigDxe.c` `ApplyStaticConfig`
Kind: D -/
def applyStaticConfig (lib : NetLib) (ip4Cfg2 : Ip4Config2) (s : StaticAnswers)
    (config : NucEthConfig Ip4Text) (nic : NicConfig) : EfiStatus × NicConfig :=
  match staticAddress lib config with
  | none => (efiInvalidParameter, nic)
  | some manualAddress =>
    if efiError s.setPolicy then (s.setPolicy, nic)
    else
      let switched := ip4Cfg2.setPolicy .static nic
      if efiError s.createTimeoutEvent then (s.createTimeoutEvent, switched)
      else if efiError s.createSetAddressEvent then (s.createSetAddressEvent, switched)
      else if efiError s.registerDataNotify then (s.registerDataNotify, switched)
      -- an address that was refused, or not taken over within the wait, is not stored
      else if efiError s.manualAddressStatus then (s.manualAddressStatus, switched)
      else
        (s.manualAddressStatus,
          setDnsServer lib s config
            (setGateway lib s config manualAddress.subnetMask
              { switched with manualAddress := some manualAddress }))

/-- One boot: the variable as it was read, the answer of `HandleProtocol`, and the rest.
Source: `EthConfigDxe.c` `ApplyConfig`
Kind: D -/
def applyConfig (lib : NetLib) (ip4Cfg2 : Ip4Config2) (v : VariableRead)
    (handleProtocol : EfiStatus) (s : StaticAnswers) (nic : NicConfig) : NicConfig :=
  match readConfigVariable v with
  | none => nic
  | some config =>
    -- DHCP off and no static address: the NIC's own IPv4 configuration is left alone
    if config.dhcpEnabled = false ∧ config.ip4Address.chars = [] then nic
    else if efiError handleProtocol then nic
    else if config.dhcpEnabled then
      if efiError s.setPolicy then nic else ip4Cfg2.setPolicy .dhcp nic
    else (applyStaticConfig lib ip4Cfg2 s config nic).2

/-! ### How a run ends -/

/-- The variable names a static address that may be applied. Kind: D -/
structure NucEthConfig.Names (lib : NetLib) (config : NucEthConfig Ip4Text) (m : ManualAddress) :
    Prop where
  address : parseIp4Field lib config.ip4Address = .ok m.address
  subnetMask : parseIp4Field lib config.ip4SubnetMask = .ok m.subnetMask
  maskLength_ne : lib.getMaskLength (ntohl m.subnetMask) ≠ 0
  maskLength_lt : lib.getMaskLength (ntohl m.subnetMask) < ip4MaskNum
  unicast : lib.ip4IsUnicast (ntohl m.address) (ntohl m.subnetMask) = true

theorem staticAddress_eq_some_iff {lib : NetLib} {config : NucEthConfig Ip4Text}
    {m : ManualAddress} : staticAddress lib config = some m ↔ config.Names lib m := by
  unfold staticAddress
  constructor
  · intro h
    rcases haddress : parseIp4Field lib config.ip4Address with e | address
    · simp only [haddress, reduceCtorEq] at h
    rcases hmask : parseIp4Field lib config.ip4SubnetMask with e | mask
    · simp only [haddress, hmask, reduceCtorEq] at h
    simp only [haddress, hmask] at h
    split_ifs at h with hbad
    push Not at hbad
    obtain rfl := Option.some.inj h
    exact ⟨haddress, hmask, hbad.1, hbad.2.1, by simpa using hbad.2.2⟩
  · intro h
    simp only [h.address, h.subnetMask]
    rw [if_neg]
    rintro (hzero | hlarge | hunicast)
    · exact h.maskLength_ne hzero
    · exact absurd h.maskLength_lt (not_lt.mpr hlarge)
    · exact Bool.false_ne_true (hunicast.symm.trans h.unicast)

theorem waitForAddress_eq : ∀ reads : List Bool,
    waitForAddress reads = if true ∈ reads then efiSuccess else efiNotReady
  | [] => rfl
  | true :: _ => by simp [waitForAddress]
  | false :: rest => by simp [waitForAddress, waitForAddress_eq rest]

/-- Every step after the policy was set succeeds; the wait ends with the address taken over.
Kind: D -/
structure StaticAnswers.Completes (s : StaticAnswers) : Prop where
  createTimeoutEvent : efiError s.createTimeoutEvent = false
  createSetAddressEvent : efiError s.createSetAddressEvent = false
  registerDataNotify : efiError s.registerDataNotify = false
  manualAddress : efiError s.setManualAddress = false ∨
    s.setManualAddress = efiNotReady ∧ true ∈ s.isAddressOk

theorem efiError_manualAddressStatus (s : StaticAnswers) :
    efiError s.manualAddressStatus = false ↔
      efiError s.setManualAddress = false ∨
        s.setManualAddress = efiNotReady ∧ true ∈ s.isAddressOk := by
  unfold StaticAnswers.manualAddressStatus
  by_cases hready : s.setManualAddress = efiNotReady
  · have herror : efiError efiNotReady = true := by decide
    rw [if_pos hready, waitForAddress_eq, hready]
    by_cases hmem : true ∈ s.isAddressOk <;> simp [hmem, herror]
  · rw [if_neg hready]
    simp [hready]

/-- The status of the steps after the policy: that of the first to fail, or of the address.
Kind: D -/
def StaticAnswers.laterStatus (s : StaticAnswers) : EfiStatus :=
  ([s.createTimeoutEvent, s.createSetAddressEvent, s.registerDataNotify].find? efiError).getD
    s.manualAddressStatus

theorem completes_iff (s : StaticAnswers) : s.Completes ↔ efiError s.laterStatus = false := by
  have hstatus := efiError_manualAddressStatus s
  unfold StaticAnswers.laterStatus
  by_cases htimeout : efiError s.createTimeoutEvent
  · exact iff_of_false (fun h => by simp [h.createTimeoutEvent] at htimeout) (by simp [htimeout])
  by_cases hevent : efiError s.createSetAddressEvent
  · exact iff_of_false (fun h => by simp [h.createSetAddressEvent] at hevent)
      (by simp [htimeout, hevent])
  by_cases hnotify : efiError s.registerDataNotify
  · exact iff_of_false (fun h => by simp [h.registerDataNotify] at hnotify)
      (by simp [htimeout, hevent, hnotify])
  simp only [Bool.not_eq_true] at htimeout hevent hnotify
  simp only [List.find?_cons, htimeout, hevent, hnotify, List.find?_nil, Option.getD_none, hstatus]
  exact ⟨fun h => h.manualAddress, fun h => ⟨htimeout, hevent, hnotify, h⟩⟩

/-- The items once everything was pushed. Kind: D -/
def pushed (lib : NetLib) (s : StaticAnswers) (config : NucEthConfig Ip4Text) (m : ManualAddress)
    (nic : NicConfig) : NicConfig :=
  setDnsServer lib s config
    (setGateway lib s config m.subnetMask { nic with manualAddress := some m })

/-- A run is refused before it touches the NIC, refused by the policy's `SetData`, stopped with
the policy switched, or goes through. Kind: L -/
theorem applyStaticConfig_eq (lib : NetLib) (ip4Cfg2 : Ip4Config2) (s : StaticAnswers)
    (config : NucEthConfig Ip4Text) (nic : NicConfig) :
    applyStaticConfig lib ip4Cfg2 s config nic =
      match staticAddress lib config with
      | none => (efiInvalidParameter, nic)
      | some m =>
        if efiError s.setPolicy then (s.setPolicy, nic)
        else if efiError s.laterStatus then (s.laterStatus, ip4Cfg2.setPolicy .static nic)
        else (s.laterStatus, pushed lib s config m (ip4Cfg2.setPolicy .static nic)) := by
  unfold applyStaticConfig
  rcases staticAddress lib config with _ | m
  · rfl
  · simp only [StaticAnswers.laterStatus, pushed]
    by_cases htimeout : efiError s.createTimeoutEvent
    · simp [htimeout]
    by_cases hevent : efiError s.createSetAddressEvent
    · simp [htimeout, hevent]
    by_cases hnotify : efiError s.registerDataNotify
    · simp [htimeout, hevent, hnotify]
    simp [htimeout, hevent, hnotify]

/-! ### A host to run on -/

def decimalOctet (digits : List UInt16) : Option UInt8 :=
  let value := digits.foldl (fun n c => 10 * n + (c.toNat - 48)) 0
  if digits ≠ [] ∧ digits.all (fun c => 48 ≤ c && c ≤ 57) ∧ value < 256 then
    some (UInt8.ofNat value)
  else none

/-- A `NetLib` that reads dotted quads in decimal and knows contiguous masks. Kind: D -/
def dottedNetLib : NetLib where
  strToIp4 s :=
    match (s.splitOn 46).map decimalOctet with
    | [some a, some b, some c, some d] => some ⟨a, b, c, d⟩
    | _ => none
  getMaskLength mask :=
    ((List.range 33).find? fun n => mask.toNat = 2 ^ 32 - 2 ^ (32 - n)).getD 33
  ip4IsUnicast ip mask :=
    decide (ip ≠ 0 ∧ ip ≠ 0xFFFFFFFF ∧ (mask = 0 ∨ ip &&& ~~~mask ≠ 0 ∧ ip &&& ~~~mask ≠ ~~~mask))

/-- A protocol that forgets address, gateway and servers when the policy changes. Kind: D -/
def forgettingProtocol : Ip4Config2 where
  onPolicyChange policy _ := ⟨policy, none, [], []⟩

def textField (s : String) : Ip4Text := .ofField (Vector.ofFn fun i => (ucs2 s).getD i 0)

/-- The variable of a host at `192.168.4.20/24` with the optional fields given. Kind: D -/
def hostConfig (gateway dns1 dns2 : String) : NucEthConfig Ip4Text where
  dhcpEnabled := false
  ip4Address := textField "192.168.4.20"
  ip4SubnetMask := textField "255.255.255.0"
  ip4Gateway := textField gateway
  ip4Dns1 := textField dns1
  ip4Dns2 := textField dns2

def allAnswered : StaticAnswers where
  setPolicy := efiSuccess
  createTimeoutEvent := efiSuccess
  createSetAddressEvent := efiSuccess
  registerDataNotify := efiSuccess
  setManualAddress := efiNotReady
  isAddressOk := [false, true]
  setGateway := efiSuccess
  setDnsServer := efiSuccess

def dhcpNic : NicConfig := ⟨.dhcp, none, [⟨10, 0, 0, 1⟩], [⟨10, 0, 0, 53⟩]⟩

def staticNic : NicConfig :=
  ⟨.static, some ⟨⟨192, 168, 9, 20⟩, ⟨255, 255, 255, 0⟩⟩, [⟨192, 168, 9, 1⟩], [⟨9, 9, 9, 9⟩]⟩

def bareStaticNic : NicConfig := ⟨.static, none, [], []⟩

/-! ### A failed run -/

/-- A run that returns an error leaves the NIC as it was unless the variable names an address, the
policy was switched to static and a later step failed. Kind: P -/
theorem failed_apply_keeps_nic_iff (lib : NetLib) (ip4Cfg2 : Ip4Config2) (s : StaticAnswers)
    (config : NucEthConfig Ip4Text) (nic : NicConfig) :
    (efiError (applyStaticConfig lib ip4Cfg2 s config nic).1 = true →
        (applyStaticConfig lib ip4Cfg2 s config nic).2 = nic) ↔
      (¬ ∃ m, config.Names lib m) ∨ efiError s.setPolicy = true ∨ nic.policy = .static ∨
        s.Completes := by
  rw [applyStaticConfig_eq, completes_iff, ← setPolicy_eq_self_iff ip4Cfg2 .static nic]
  rcases haddress : staticAddress lib config with _ | m
  · have hnone : ¬ ∃ m, config.Names lib m := by
      rintro ⟨m, hm⟩
      rw [staticAddress_eq_some_iff.mpr hm] at haddress
      exact absurd haddress (by simp)
    simp [hnone]
  · have hsome : ∃ m, config.Names lib m := ⟨m, staticAddress_eq_some_iff.mp haddress⟩
    by_cases hpolicy : efiError s.setPolicy = true
    · simp [hpolicy]
    by_cases hlater : efiError s.laterStatus = true
    · simp [hpolicy, hlater, hsome]
    · simp [hpolicy, hlater]

/-- With the NIC on DHCP, an event that cannot be created and an address that is not taken over in
time both return an error and leave the NIC static and without an address. Kind: C -/
theorem failed_apply_leaves_nic_static :
    let run := fun s => applyStaticConfig dottedNetLib forgettingProtocol s
      (hostConfig "192.168.4.1" "1.1.1.1" "") dhcpNic
    let noEvent := run { allAnswered with createTimeoutEvent := efiOutOfResources }
    let tooLate := run { allAnswered with isAddressOk := [false, false] }
    (efiError noEvent.1 = true ∧ noEvent.2 = bareStaticNic) ∧
      (efiError tooLate.1 = true ∧ tooLate.2 = bareStaticNic) ∧ bareStaticNic ≠ dhcpNic := by
  decide +kernel

/-! ### A run that goes through -/

/-- Every optional `SetData` succeeds. Kind: D -/
structure StaticAnswers.OptionalSet (s : StaticAnswers) : Prop where
  setGateway : efiError s.setGateway = false
  setDnsServer : efiError s.setDnsServer = false

/-- The items after everything was pushed and stored: an optional item the variable does not name
stays what it was. Kind: D -/
def stored (lib : NetLib) (config : NucEthConfig Ip4Text) (m : ManualAddress) (nic : NicConfig) :
    NicConfig where
  policy := nic.policy
  manualAddress := some m
  gateway := (usableGateway lib config m.subnetMask).elim nic.gateway fun gateway => [gateway]
  dnsServer := if usableServers lib config = [] then nic.dnsServer else usableServers lib config

theorem pushed_eq_stored {s : StaticAnswers} (hset : s.OptionalSet) (lib : NetLib)
    (config : NucEthConfig Ip4Text) (m : ManualAddress) (nic : NicConfig) :
    pushed lib s config m nic = stored lib config m nic := by
  unfold pushed stored setDnsServer setGateway
  simp only [List.length_pos_iff, hset.setGateway, hset.setDnsServer, Bool.false_eq_true, if_false]
  rcases usableGateway lib config m.subnetMask with _ | gateway <;>
    by_cases hservers : usableServers lib config = [] <;> simp [hservers]

theorem names_of_applied {lib : NetLib} {ip4Cfg2 : Ip4Config2} {s : StaticAnswers}
    {config : NucEthConfig Ip4Text} {nic : NicConfig}
    (hok : efiError (applyStaticConfig lib ip4Cfg2 s config nic).1 = false) :
    ∃ m, config.Names lib m ∧ (applyStaticConfig lib ip4Cfg2 s config nic).2 =
      pushed lib s config m (ip4Cfg2.setPolicy .static nic) := by
  rw [applyStaticConfig_eq] at hok ⊢
  rcases haddress : staticAddress lib config with _ | m
  · have herror : efiError efiInvalidParameter = true := by decide
    simp [haddress, herror] at hok
  · refine ⟨m, staticAddress_eq_some_iff.mp haddress, ?_⟩
    by_cases hpolicy : efiError s.setPolicy = true
    · simp [haddress, hpolicy] at hok
    by_cases hlater : efiError s.laterStatus = true
    · simp [haddress, hpolicy, hlater] at hok
    simp [hpolicy, hlater]

/-- From a static configuration, a run in which every `SetData` succeeds leaves exactly the items
the variable names, and of the optional ones the old where it names none. Kind: L -/
theorem applied_eq_stored {lib : NetLib} {ip4Cfg2 : Ip4Config2} {s : StaticAnswers}
    {config : NucEthConfig Ip4Text} {nic : NicConfig} (hstatic : nic.policy = .static)
    (hok : efiError (applyStaticConfig lib ip4Cfg2 s config nic).1 = false)
    (hset : s.OptionalSet) :
    ∃ m, config.Names lib m ∧
      (applyStaticConfig lib ip4Cfg2 s config nic).2 = stored lib config m nic := by
  obtain ⟨m, hm, heq⟩ := names_of_applied hok
  rw [(setPolicy_eq_self_iff ip4Cfg2 .static nic).mpr hstatic, pushed_eq_stored hset] at heq
  exact ⟨m, hm, heq⟩

theorem NucEthConfig.Names.unique {lib : NetLib} {config : NucEthConfig Ip4Text}
    {m m' : ManualAddress} (h : config.Names lib m) (h' : config.Names lib m') : m = m' :=
  Option.some.inj
    ((staticAddress_eq_some_iff.mpr h).symm.trans (staticAddress_eq_some_iff.mpr h'))

theorem gateway_stored_eq_iff (lib : NetLib) (config : NucEthConfig Ip4Text) (m : ManualAddress)
    (nic₁ nic₂ : NicConfig) :
    (stored lib config m nic₁).gateway = (stored lib config m nic₂).gateway ↔
      usableGateway lib config m.subnetMask ≠ none ∨ nic₁.gateway = nic₂.gateway := by
  unfold stored
  rcases usableGateway lib config m.subnetMask with _ | gateway <;> simp

theorem dnsServer_stored_eq_iff (lib : NetLib) (config : NucEthConfig Ip4Text) (m : ManualAddress)
    (nic₁ nic₂ : NicConfig) :
    (stored lib config m nic₁).dnsServer = (stored lib config m nic₂).dnsServer ↔
      usableServers lib config ≠ [] ∨ nic₁.dnsServer = nic₂.dnsServer := by
  unfold stored
  by_cases hservers : usableServers lib config = [] <;> simp [hservers]

/-- Two runs of one variable from two static configurations. Policy, address and mask are the
variable's; gateway and DNS list agree exactly where it names them or they agreed before. Kind: P -/
theorem applied_items_eq_iff (lib : NetLib) (ip4Cfg2 : Ip4Config2) (config : NucEthConfig Ip4Text)
    {s₁ s₂ : StaticAnswers} {nic₁ nic₂ : NicConfig} (hstatic₁ : nic₁.policy = .static)
    (hstatic₂ : nic₂.policy = .static)
    (hok₁ : efiError (applyStaticConfig lib ip4Cfg2 s₁ config nic₁).1 = false)
    (hok₂ : efiError (applyStaticConfig lib ip4Cfg2 s₂ config nic₂).1 = false)
    (hset₁ : s₁.OptionalSet) (hset₂ : s₂.OptionalSet) :
    let after₁ := (applyStaticConfig lib ip4Cfg2 s₁ config nic₁).2
    let after₂ := (applyStaticConfig lib ip4Cfg2 s₂ config nic₂).2
    ∃ m, config.Names lib m ∧
      (after₁.policy = .static ∧ after₁.manualAddress = some m) ∧
      (after₂.policy = .static ∧ after₂.manualAddress = some m) ∧
      (after₁.gateway = after₂.gateway ↔
        usableGateway lib config m.subnetMask ≠ none ∨ nic₁.gateway = nic₂.gateway) ∧
      (after₁.dnsServer = after₂.dnsServer ↔
        usableServers lib config ≠ [] ∨ nic₁.dnsServer = nic₂.dnsServer) := by
  obtain ⟨m, hm, heq₁⟩ := applied_eq_stored hstatic₁ hok₁ hset₁
  obtain ⟨m', hm', heq₂⟩ := applied_eq_stored hstatic₂ hok₂ hset₂
  obtain rfl := hm.unique hm'
  intro after₁ after₂
  have hafter₁ : after₁ = stored lib config m nic₁ := heq₁
  have hafter₂ : after₂ = stored lib config m nic₂ := heq₂
  rw [hafter₁, hafter₂]
  exact ⟨m, hm, ⟨hstatic₁, rfl⟩, ⟨hstatic₂, rfl⟩, gateway_stored_eq_iff lib config m nic₁ nic₂,
    dnsServer_stored_eq_iff lib config m nic₁ nic₂⟩

theorem allAnswered_optionalSet : allAnswered.OptionalSet := ⟨by decide, by decide⟩

/-- Where the variable names gateway and a server, the items before do not matter. Kind: C -/
theorem applied_items_eq_renumbered :
    (applyStaticConfig dottedNetLib forgettingProtocol allAnswered
        (hostConfig "192.168.4.1" "no address" "1.1.1.1") staticNic).2 =
      (applyStaticConfig dottedNetLib forgettingProtocol allAnswered
        (hostConfig "192.168.4.1" "no address" "1.1.1.1") bareStaticNic).2 := by
  have hok₁ : efiError (applyStaticConfig dottedNetLib forgettingProtocol allAnswered
      (hostConfig "192.168.4.1" "no address" "1.1.1.1") staticNic).1 = false := by decide +kernel
  have hok₂ : efiError (applyStaticConfig dottedNetLib forgettingProtocol allAnswered
      (hostConfig "192.168.4.1" "no address" "1.1.1.1") bareStaticNic).1 = false := by
    decide +kernel
  obtain ⟨m, hm, ⟨hpolicy₁, haddress₁⟩, ⟨hpolicy₂, haddress₂⟩, hgateway, hdns⟩ :=
    applied_items_eq_iff dottedNetLib forgettingProtocol
      (hostConfig "192.168.4.1" "no address" "1.1.1.1") rfl rfl hok₁ hok₂ allAnswered_optionalSet
      allAnswered_optionalSet
  have hnamed : staticAddress dottedNetLib (hostConfig "192.168.4.1" "no address" "1.1.1.1") =
      some ⟨⟨192, 168, 4, 20⟩, ⟨255, 255, 255, 0⟩⟩ := by decide +kernel
  obtain rfl := hm.unique (staticAddress_eq_some_iff.mp hnamed)
  refine NicConfig.ext (hpolicy₁.trans hpolicy₂.symm) (haddress₁.trans haddress₂.symm) ?_ ?_
  · exact hgateway.mpr (.inl (by decide +kernel))
  · exact hdns.mpr (.inl (by decide +kernel))

/-- A variable with gateway and servers cleared leaves the old gateway and the old servers, so the
same variable gives two configurations. Kind: C -/
theorem cleared_gateway_survives :
    let run := applyStaticConfig dottedNetLib forgettingProtocol allAnswered (hostConfig "" "" "")
    efiError (run staticNic).1 = false ∧ efiError (run bareStaticNic).1 = false ∧
      (run staticNic).2.gateway = [⟨192, 168, 9, 1⟩] ∧ (run bareStaticNic).2.gateway = [] ∧
      (run staticNic).2.dnsServer = [⟨9, 9, 9, 9⟩] ∧ (run bareStaticNic).2.dnsServer = [] := by
  decide +kernel

/-! ### Boot after boot -/

/-- The items already are what the variable names. Kind: D -/
structure NicConfig.Settled (nic : NicConfig) (lib : NetLib) (config : NucEthConfig Ip4Text) :
    Prop where
  policy : nic.policy = .static
  manualAddress : ∀ m, config.Names lib m → nic.manualAddress = some m
  gateway : ∀ m, config.Names lib m → ∀ gateway,
    usableGateway lib config m.subnetMask = some gateway → nic.gateway = [gateway]
  dnsServer : usableServers lib config ≠ [] → nic.dnsServer = usableServers lib config

theorem settled_stored {lib : NetLib} {config : NucEthConfig Ip4Text} {m : ManualAddress}
    (hm : config.Names lib m) {nic : NicConfig} (hstatic : nic.policy = .static) :
    (stored lib config m nic).Settled lib config where
  policy := hstatic
  manualAddress _ hm' := congrArg some (hm.unique hm')
  gateway m' hm' gateway hgateway := by
    obtain rfl := hm.unique hm'
    simp only [stored, hgateway, Option.elim_some]
  dnsServer hservers := if_neg hservers

theorem pushed_of_settled {lib : NetLib} {config : NucEthConfig Ip4Text} {m : ManualAddress}
    (hm : config.Names lib m) {nic : NicConfig} (hnic : nic.Settled lib config)
    (s : StaticAnswers) : pushed lib s config m nic = nic := by
  have haddress : { nic with manualAddress := some m } = nic := by
    rw [← hnic.manualAddress m hm]
  have hgateway : setGateway lib s config m.subnetMask nic = nic := by
    unfold setGateway
    rcases husable : usableGateway lib config m.subnetMask with _ | gateway
    · rfl
    · simp only
      rw [← hnic.gateway m hm gateway husable, ite_self]
  have hdns : setDnsServer lib s config nic = nic := by
    unfold setDnsServer
    by_cases hservers : usableServers lib config = []
    · simp [hservers]
    · rw [← hnic.dnsServer hservers, ite_self, ite_self]
  rw [pushed, haddress, hgateway, hdns]

/-- A settled NIC is not changed by a run, whatever fails in it. Kind: L -/
theorem apply_of_settled {lib : NetLib} {config : NucEthConfig Ip4Text} {nic : NicConfig}
    (hnic : nic.Settled lib config) (ip4Cfg2 : Ip4Config2) (s : StaticAnswers) :
    (applyStaticConfig lib ip4Cfg2 s config nic).2 = nic := by
  rw [applyStaticConfig_eq, (setPolicy_eq_self_iff ip4Cfg2 .static nic).mpr hnic.policy]
  rcases haddress : staticAddress lib config with _ | m
  · rfl
  · simp only [pushed_of_settled (staticAddress_eq_some_iff.mp haddress) hnic s, apply_ite Prod.snd,
      ite_self]

/-- A run in which everything succeeds is not undone by a second one. Kind: L -/
theorem applyStaticConfig_stable (lib : NetLib) (ip4Cfg2 : Ip4Config2)
    (config : NucEthConfig Ip4Text) {s : StaticAnswers} (hpolicy : efiError s.setPolicy = false)
    (hcompletes : s.Completes) (hset : s.OptionalSet) (s' : StaticAnswers) (nic : NicConfig) :
    (applyStaticConfig lib ip4Cfg2 s' config (applyStaticConfig lib ip4Cfg2 s config nic).2).2 =
      (applyStaticConfig lib ip4Cfg2 s config nic).2 := by
  rcases haddress : staticAddress lib config with _ | m
  · simp only [applyStaticConfig_eq, haddress]
  · have heq : (applyStaticConfig lib ip4Cfg2 s config nic).2 =
        stored lib config m (ip4Cfg2.setPolicy .static nic) := by
      rw [applyStaticConfig_eq, ← pushed_eq_stored hset]
      simp only [haddress, hpolicy, (completes_iff s).mp hcompletes, Bool.false_eq_true, if_false]
    have hsettled := settled_stored (staticAddress_eq_some_iff.mp haddress)
      (policy_setPolicy ip4Cfg2 .static nic)
    rw [heq]
    exact apply_of_settled hsettled ip4Cfg2 s'

/-- A boot in which every service answers leaves items that no later boot with the same variable
changes, whatever fails in that one. Kind: P -/
theorem applyConfig_stable (lib : NetLib) (ip4Cfg2 : Ip4Config2) (v : VariableRead)
    {handleProtocol : EfiStatus} (hhandle : efiError handleProtocol = false) {s : StaticAnswers}
    (hpolicy : efiError s.setPolicy = false) (hcompletes : s.Completes) (hset : s.OptionalSet)
    (handleProtocol' : EfiStatus) (s' : StaticAnswers) (nic : NicConfig) :
    applyConfig lib ip4Cfg2 v handleProtocol' s' (applyConfig lib ip4Cfg2 v handleProtocol s nic) =
      applyConfig lib ip4Cfg2 v handleProtocol s nic := by
  unfold applyConfig
  rcases readConfigVariable v with _ | config
  · rfl
  rcases hdhcp : config.dhcpEnabled with _ | _
  · by_cases hempty : config.ip4Address.chars = []
    · simp [hdhcp, hempty]
    · have hstable := applyStaticConfig_stable lib ip4Cfg2 config hpolicy hcompletes hset s' nic
      simp [hdhcp, hempty, hhandle, hstable]
  · -- the policy is DHCP after the first boot, and setting it again does nothing
    have hagain := (setPolicy_eq_self_iff ip4Cfg2 .dhcp (ip4Cfg2.setPolicy .dhcp nic)).mpr
      (policy_setPolicy ip4Cfg2 .dhcp nic)
    simp [hdhcp, hhandle, hpolicy, hagain]

end NucBios.Ethernet
