import Mathlib.Data.List.TakeWhile
import NucBios.Setup.Boots

/-!
# From a configuration string to the variable of an option

The browser does not know variables. It asks the driver for the configuration of a `varstore`, in a
string with the name of the store in hexadecimal digits, and hands it back in the same form when the
user has changed something. The driver takes the variable's name out of the string.

* `convertHiiConfigString_name`: for every name it takes out the name the string was made for;
* `routeConfig_own_option`: so what the user changes in the menu goes to the option's own variable,
  with its attributes and its size, and nowhere else; if the variable is locked the driver reports
  success and nothing is changed.

What the protocol of the HII database makes of the string, and what the variable driver answers, is
not the driver's: `ConfigRouting` and `answer` stand for them, with their errors.
-/

namespace NucBios.Setup

open NucBios.Lib NucBios.Uefi

/-! ### The driver -/

/-- `StrStr`: the string from the first place where `pattern` stands. Kind: D -/
def strStr (pattern : Text) : Text → Option Text
  | [] => if pattern = [] then some [] else none
  | c :: s => if pattern <+: c :: s then some (c :: s) else strStr pattern s

/-- The value of a hexadecimal digit, of either case. Kind: D -/
def hexDigitValue (c : UInt16) : Option ℕ :=
  if 0x30 ≤ c.toNat ∧ c.toNat ≤ 0x39 then some (c.toNat - 0x30)
  else if 0x41 ≤ c.toNat ∧ c.toNat ≤ 0x46 then some (c.toNat - 0x41 + 10)
  else if 0x61 ≤ c.toNat ∧ c.toNat ≤ 0x66 then some (c.toNat - 0x61 + 10)
  else none

/-- `StrHexToBytes`: two digits make an octet. Kind: D -/
def strHexToBytes : Text → Option (List UInt8)
  | [] => some []
  | [_] => none
  | high :: low :: rest => do
      let h ← hexDigitValue high
      let l ← hexDigitValue low
      let bytes ← strHexToBytes rest
      return UInt8.ofNat (16 * h + l) :: bytes

/-- `SwapBytes16`. Kind: D -/
def swapBytes16 (w : UInt16) : UInt16 := UInt16.ofNat (w.toNat % 256 * 256 + w.toNat / 256)

/-- Octets taken as characters, each with its octets swapped; an odd one at the end is lost.
Kind: D -/
def swappedChars : List UInt8 → Text
  | first :: second :: rest =>
      swapBytes16 (UInt16.ofNat (first.toNat + 256 * second.toNat)) :: swappedChars rest
  | _ => []

/-- `&NAME=`. Kind: D -/
def nameKey : Text := [0x26, 0x4E, 0x41, 0x4D, 0x45, 0x3D]

/-- `&`. Kind: D -/
def ampersand : UInt16 := 0x26

/-- Source: `SetupMenuHii.c` `ConvertHiiConfigStringToVariableString`
Kind: D -/
def convertHiiConfigStringToVariableString (config : Text) : Except Stop Text := do
  let found ← require (strStr nameKey config)
  let start := found.drop nameKey.length
  let stop ← require (strStr [ampersand] start)
  let bytes ← require (strHexToBytes (start.take (start.length - stop.length)))
  return (swappedChars bytes).takeWhile (· != 0)

/-- `EFI_HII_CONFIG_ROUTING_PROTOCOL`, as far as the driver uses it: the status of `ConfigToBlock`
for a configuration string and a block, and what the block holds then, which keeps its size.
Kind: D -/
structure ConfigRouting where
  configToBlock : Text → List UInt8 → EfiStatus × List UInt8
  length_block : ∀ config block, (configToBlock config block).2.length = block.length

/-- The string sets the four octets of a question to a value: `ConfigToBlock` takes it, and the
block holds the value then. Kind: D -/
def ConfigRouting.Sets (routing : ConfigRouting) (config : Text) (value : UInt32) : Prop :=
  ∀ block, block.length = 4 → routing.configToBlock config block = (efiSuccess, le32 value)

/-- `SetVariable` for a variable that is there: a locked one stays, and so does one for which the
variable driver's answer is an error. Kind: D -/
def Variables.setVariable (answer : EfiStatus) (vars : Variables) (name : Text) (v : Variable) :
    EfiStatus × Variables :=
  if vars.locked name then (efiWriteProtected, vars)
  else if efiError answer then (answer, vars)
  else (answer, vars.write name (some v))

/-- The status that is reported: `EFI_WRITE_PROTECTED` counts as success. Kind: D -/
def reported (status : EfiStatus) : EfiStatus :=
  if status = efiWriteProtected then efiSuccess else status

/-- `ASSERT_EFI_ERROR`, in a build with or without assertions. Kind: D -/
def assertEfiError (asserts : Bool) (status : EfiStatus) : Except Stop Unit :=
  if asserts && efiError status then .error .assert else .ok ()

/-- For arguments that are not `NULL`, which `EFI_INVALID_PARAMETER` answers. A variable that is not
there stops the driver also without assertions: it would go on with what nothing has set.
Source: `SetupMenuHii.c` `SetupMenuRouteConfig`
Kind: D -/
def setupMenuRouteConfig (asserts : Bool) (routing : ConfigRouting) (answer : EfiStatus)
    (config : Text) (vars : Variables) : Except Stop (EfiStatus × Variables) := do
  let name ← convertHiiConfigStringToVariableString config
  let v ← require (vars.get name)
  let (status, block) := routing.configToBlock config v.data
  assertEfiError asserts status
  -- as many octets are written as were read, with the attributes that were read
  let (status, vars) := vars.setVariable answer name { v with data := block }
  let status := reported status
  assertEfiError asserts status
  return (status, vars)

/-- What becomes of the variables and of the status when `block` is routed to the variable `v` of
`name`. Kind: D -/
structure Routed (block : List UInt8) (answer : EfiStatus) (name : Text) (v : Variable)
    (vars vars' : Variables) (status : EfiStatus) : Prop where
  status : status =
    if vars.locked name ∨ answer = efiWriteProtected then efiSuccess else answer
  own : vars'.get name =
    some (if vars.locked name ∨ efiError answer then v else { v with data := block })
  size : block.length = v.data.length
  other : ∀ other, other ≠ name → vars'.get other = vars.get other

/-- `SetVariable`, with `EFI_WRITE_PROTECTED` counted as success. Kind: L -/
theorem routed_setVariable {vars : Variables} {name : Text} {v : Variable} {block : List UInt8}
    (hv : vars.get name = some v) (hsize : block.length = v.data.length) (answer : EfiStatus) :
    Routed block answer name v vars (vars.setVariable answer name { v with data := block }).2
      (reported (vars.setVariable answer name { v with data := block }).1) := by
  rw [Variables.setVariable, reported]
  split
  · next hlocked => exact ⟨by simp [hlocked], by simp [hlocked, hv], hsize, fun _ _ => rfl⟩
  · next hlocked =>
      split
      · next herror => exact ⟨by simp [hlocked], by simp [herror, hv], hsize, fun _ _ => rfl⟩
      · next herror =>
          refine ⟨by simp [hlocked], ?_, hsize, fun other hother =>
            Variables.get_write_of_ne hother.symm⟩
          rw [if_neg (by simp [hlocked, herror])]
          exact Variables.get_write_of_unlocked (Bool.of_not_eq_true hlocked)

/-- An unlocked variable takes what the variable driver does not refuse. Kind: L -/
theorem Routed.of_unlocked {block : List UInt8} {answer status : EfiStatus} {name : Text}
    {v : Variable} {vars vars' : Variables} (h : Routed block answer name v vars vars' status)
    (hunlocked : vars.locked name = false) (hanswer : efiError answer = false) :
    status = answer ∧ vars'.get name = some { v with data := block } := by
  constructor
  · rw [h.status, if_neg]
    rintro (hlocked | rfl)
    · exact absurd hlocked (by simp [hunlocked])
    · exact absurd hanswer (by decide)
  · rw [h.own, if_neg (by simp [hunlocked, hanswer])]

/-- Once the name is known: the driver stops at an error if there are assertions, and otherwise
routes the block to the variable. Kind: L -/
theorem routeConfig_of_name {config name : Text} {vars : Variables} {v : Variable}
    (hname : convertHiiConfigStringToVariableString config = .ok name)
    (hv : vars.get name = some v) (asserts : Bool) (routing : ConfigRouting) (answer : EfiStatus) :
    ∃ vars' status,
      Routed (routing.configToBlock config v.data).2 answer name v vars vars' status ∧
      setupMenuRouteConfig asserts routing answer config vars =
        if asserts && (efiError (routing.configToBlock config v.data).1 || efiError status) then
          .error .assert
        else .ok (status, vars') := by
  refine ⟨_, _, routed_setVariable hv (routing.length_block config v.data) answer, ?_⟩
  rw [setupMenuRouteConfig, hname]
  simp only [bind, Except.bind, hv, require, assertEfiError]
  cases asserts with
  | false => rfl
  | true =>
      cases herror : efiError (routing.configToBlock config v.data).1 with
      | true => rfl
      | false =>
          simp only [Bool.true_and, Bool.false_or]
          generalize efiError (reported _) = failed
          cases failed <;> rfl

/-! ### The names and variables of the menu -/

lemma zero_notMem_text (v : VarBinary) : 0 ∉ v.text := by
  rw [VarBinary.text, VarBinary.text?]
  split
  · intro h
    obtain ⟨c, hc, hzero⟩ := List.mem_map.mp h
    have hne : c ≠ 0 := by simpa using List.mem_takeWhile_imp hc
    have hnat := congrArg UInt16.toNat hzero
    rw [UInt8.toNat_toUInt16] at hnat
    exact hne (UInt8.toNat_inj.mp hnat)
  · exact List.not_mem_nil

lemma zero_notMem_requestName {fw : Firmware} {item : CfrItem} {r : Request}
    (h : item.request? fw = some r) : 0 ∉ r.name := by
  cases item with
  | form f => exact nomatch h
  | numeric o =>
      injection h with h
      exact h ▸ zero_notMem_text o.name
  | character o =>
      obtain ⟨s, -, hs⟩ := Option.map_eq_some_iff.mp h
      exact hs ▸ zero_notMem_text s.2

lemma zero_notMem_hobRequests {fw : Firmware} {hobs : List (ℕ → UInt8)} {r : Request}
    (h : r ∈ hobs.flatMap (hobRequests fw)) : 0 ∉ r.name := by
  obtain ⟨hob, -, hr⟩ := List.mem_flatMap.mp h
  rw [hobRequests] at hr
  split at hr
  · exact absurd hr List.not_mem_nil
  · obtain ⟨item, -, hitem⟩ := List.mem_filterMap.mp hr
    exact zero_notMem_requestName hitem

/-- Every option of the menu has its variable. Kind: L -/
theorem exists_variable {fw : Firmware} {hobs : List (ℕ → UInt8)} {vars : Variables} {m : Menu}
    {r : Request} (hok : cfrCreateRuntimeComponents fw hobs vars = .ok m)
    (hr : r ∈ hobs.flatMap (hobRequests fw)) : ∃ v, m.vars.get r.name = some v := by
  have hget := (createdVariables_eq hok).get r.name
  have hfind : ((hobs.flatMap (hobRequests fw)).find? fun r' => r'.name = r.name).isSome :=
    List.find?_isSome.mpr ⟨r, hr, decide_eq_true rfl⟩
  obtain ⟨first, hfirst⟩ := Option.isSome_iff_exists.mp hfind
  cases hold : vars.get r.name with
  | none =>
      rw [hold, hfirst, Option.none_or, Option.map_some] at hget
      exact ⟨_, hget⟩
  | some v =>
      rw [hold, Option.some_or] at hget
      exact ⟨v, hget⟩

/-! ### The name that is taken out -/

/-- A character in four digits. Kind: D -/
def charDigits (digit : ℕ → UInt16) (c : UInt16) : Text :=
  [digit (c.toNat / 0x1000), digit (c.toNat / 0x100 % 0x10), digit (c.toNat / 0x10 % 0x10),
    digit (c.toNat % 0x10)]

/-- The configuration string of a `varstore`. Kind: D -/
def configString (digit : ℕ → UInt16) (front name rest : Text) : Text :=
  front ++ (nameKey ++ (name.flatMap (charDigits digit) ++ ampersand :: rest))

/-- The pattern is found where it stands, if its first character does not stand before. Kind: L -/
theorem strStr_append {p : UInt16} {pattern front rest : Text} (hfront : p ∉ front) :
    strStr (p :: pattern) (front ++ ((p :: pattern) ++ rest)) = some ((p :: pattern) ++ rest) := by
  induction front with
  | nil => exact if_pos (List.prefix_append (p :: pattern) rest)
  | cons c front ih =>
      have hc : p ≠ c := fun h => hfront (h ▸ List.mem_cons_self)
      rw [List.cons_append, strStr, if_neg, ih fun h => hfront (List.mem_cons_of_mem _ h)]
      intro hprefix
      exact hc (List.cons_prefix_cons.mp hprefix).1

lemma swapped_char (c : UInt16) :
    swapBytes16 (UInt16.ofNat ((UInt8.ofNat (c.toNat / 256)).toNat +
      256 * (UInt8.ofNat (c.toNat % 256)).toNat)) = c := by
  have hlt := c.toNat_lt
  have hhigh : c.toNat / 256 < 2 ^ 8 := by omega
  have hlow : c.toNat % 256 < 2 ^ 8 := by omega
  have hsum : c.toNat / 256 + 256 * (c.toNat % 256) < 2 ^ 16 := by omega
  have hswap : (c.toNat / 256 + 256 * (c.toNat % 256)) % 256 = c.toNat / 256 ∧
      (c.toNat / 256 + 256 * (c.toNat % 256)) / 256 = c.toNat % 256 := by omega
  apply UInt16.toNat_inj.mp
  rw [swapBytes16, UInt16.toNat_ofNat', UInt16.toNat_ofNat', UInt8.toNat_ofNat',
    UInt8.toNat_ofNat', Nat.mod_eq_of_lt hhigh, Nat.mod_eq_of_lt hlow, Nat.mod_eq_of_lt hsum,
    hswap.1, hswap.2]
  omega

section

variable {digit : ℕ → UInt16} (hdigit : ∀ n < 16, hexDigitValue (digit n) = some n)
include hdigit

/-- Four digits of a character are two octets, and they are the character. Kind: L -/
theorem strHexToBytes_char (c : UInt16) (rest : Text) :
    strHexToBytes (charDigits digit c ++ rest) = (strHexToBytes rest).map fun bytes =>
      UInt8.ofNat (c.toNat / 256) :: UInt8.ofNat (c.toNat % 256) :: bytes := by
  have hlt := c.toNat_lt
  simp only [charDigits, List.cons_append, List.nil_append, strHexToBytes]
  rw [hdigit _ (by omega), hdigit _ (by omega), hdigit _ (by omega), hdigit _ (by omega)]
  have hhigh : 16 * (c.toNat / 0x1000) + c.toNat / 0x100 % 0x10 = c.toNat / 256 := by omega
  have hlow : 16 * (c.toNat / 0x10 % 0x10) + c.toNat % 0x10 = c.toNat % 256 := by omega
  simp only [Option.bind_eq_bind, Option.bind_some, hhigh, hlow]
  cases strHexToBytes rest <;> rfl

/-- The digits of a name are the name, by induction on its characters. Kind: L -/
theorem strHexToBytes_name (name : Text) :
    ∃ bytes, strHexToBytes (name.flatMap (charDigits digit)) = some bytes ∧
      swappedChars bytes = name := by
  induction name with
  | nil => exact ⟨[], rfl, rfl⟩
  | cons c name ih =>
      obtain ⟨bytes, hbytes, hname⟩ := ih
      refine ⟨_, by rw [List.flatMap_cons, strHexToBytes_char hdigit, hbytes, Option.map_some], ?_⟩
      rw [swappedChars, swapped_char c, hname]

lemma ampersand_notMem_digits (name : Text) : ampersand ∉ name.flatMap (charDigits digit) := by
  intro h
  obtain ⟨c, -, hc⟩ := List.mem_flatMap.mp h
  have hlt := c.toNat_lt
  have hnot : ∀ n < 16, ampersand ≠ digit n := by
    intro n hn heq
    have hvalue := hdigit n hn
    rw [← heq] at hvalue
    exact absurd hvalue (by simp [hexDigitValue, ampersand])
  simp only [charDigits, List.mem_cons, List.not_mem_nil, or_false] at hc
  rcases hc with h | h | h | h
  · exact hnot _ (by omega) h
  · exact hnot _ (by omega) h
  · exact hnot _ (by omega) h
  · exact hnot _ (by omega) h

/-- Whatever digits are used for it, and whatever stands around it: the name that is taken out of a
configuration string is the one it was made for. Kind: P -/
theorem convertHiiConfigString_name {front name : Text} (rest : Text) (hfront : ampersand ∉ front)
    (hname : 0 ∉ name) :
    convertHiiConfigStringToVariableString (configString digit front name rest) = .ok name := by
  obtain ⟨bytes, hbytes, hswapped⟩ := strHexToBytes_name hdigit name
  have hkey : strStr nameKey (configString digit front name rest) =
      some (nameKey ++ (name.flatMap (charDigits digit) ++ ampersand :: rest)) :=
    strStr_append hfront
  have hend : strStr [ampersand] (name.flatMap (charDigits digit) ++ ampersand :: rest) =
      some (ampersand :: rest) :=
    strStr_append (ampersand_notMem_digits hdigit name)
  have hlength : (name.flatMap (charDigits digit) ++ ampersand :: rest).length -
      (ampersand :: rest).length = (name.flatMap (charDigits digit)).length := by
    rw [List.length_append, Nat.add_sub_cancel]
  rw [convertHiiConfigStringToVariableString, hkey]
  simp only [require, bind, Except.bind, List.drop_left, hend, hlength, List.take_left, hbytes]
  rw [hswapped, List.takeWhile_eq_self_iff.mpr]
  · rfl
  · intro c hc
    have hne : c ≠ 0 := fun h => hname (h ▸ hc)
    simpa using hne

/-- What the user changes about an option goes to the variable of that option: it keeps its
attributes and its size, no other variable is touched, and if it is locked, or the variable driver
fails, it stays as it is. `EFI_WRITE_PROTECTED` is reported as success. With assertions an error of
`ConfigToBlock`, or one that would be reported, stops the driver; without them the first is lost.
Kind: P -/
theorem routeConfig_own_option {fw : Firmware} {hobs : List (ℕ → UInt8)} {vars : Variables}
    {m : Menu} {r : Request} {front : Text}
    (hok : cfrCreateRuntimeComponents fw hobs vars = .ok m)
    (hr : r ∈ hobs.flatMap (hobRequests fw)) (hfront : ampersand ∉ front) (rest : Text)
    (asserts : Bool) (routing : ConfigRouting) (answer : EfiStatus) :
    ∃ v vars' status, m.vars.get r.name = some v ∧
      Routed (routing.configToBlock (configString digit front r.name rest) v.data).2 answer r.name v
        m.vars vars' status ∧
      setupMenuRouteConfig asserts routing answer (configString digit front r.name rest) m.vars =
        if asserts && (efiError
            (routing.configToBlock (configString digit front r.name rest) v.data).1 ||
              efiError status) then .error .assert
        else .ok (status, vars') := by
  obtain ⟨v, hv⟩ := exists_variable hok hr
  have hname := convertHiiConfigString_name hdigit rest hfront (zero_notMem_hobRequests hr)
  obtain ⟨vars', status, hrouted, hroute⟩ := routeConfig_of_name hname hv asserts routing answer
  exact ⟨v, vars', status, hv, hrouted, hroute⟩

end

/-- Digits of lower case. Kind: D -/
def lowerDigit (n : ℕ) : UInt16 := UInt16.ofNat (if n < 10 then 0x30 + n else 0x57 + n)

lemma hexDigitValue_lowerDigit : ∀ n < 16, hexDigitValue (lowerDigit n) = some n := by decide

/-- A number in hexadecimal digits. Kind: D -/
def hexNumber (digits : Text) : Option ℕ :=
  digits.foldlM (fun n c => (hexDigitValue c).map (16 * n + ·)) 0

/-- The number behind a key of a configuration string, up to the next `&`. Kind: D -/
def numberOf (key : String) (config : Text) : Option ℕ :=
  (strStr (ucs2 key) config).bind fun found =>
    hexNumber ((found.drop (ucs2 key).length).takeWhile (· != ampersand))

/-- A number in octets, least significant first. Kind: D -/
def leOctets (width value : ℕ) : List UInt8 :=
  (List.range width).map fun i => UInt8.ofNat (value / 256 ^ i)

/-- A protocol for the samples: it takes the one value that is in the string to its place.
Kind: D -/
def ConfigRouting.oneValue : ConfigRouting where
  configToBlock config block :=
    match numberOf "&OFFSET=" config, numberOf "&WIDTH=" config, numberOf "&VALUE=" config with
    | some offset, some width, some value =>
        if offset + width ≤ block.length then
          (efiSuccess, block.take offset ++ leOctets width value ++ block.drop (offset + width))
        else (efiBufferTooSmall, block)
    | _, _, _ => (efiInvalidParameter, block)
  length_block config block := by
    split
    · split
      · simp [leOctets]
        omega
      · rfl
    · rfl

lemma oneValue_sets {config : Text} (n : ℕ) {value : UInt32}
    (hoffset : numberOf "&OFFSET=" config = some 0) (hwidth : numberOf "&WIDTH=" config = some 4)
    (hvalue : numberOf "&VALUE=" config = some n) (hoctets : leOctets 4 n = le32 value) :
    ConfigRouting.oneValue.Sets config value := by
  intro block hblock
  simp only [ConfigRouting.oneValue, hoffset, hwidth, hvalue, hoctets, Nat.zero_add, hblock,
    le_refl, if_true, List.take_zero, List.nil_append]
  rw [List.drop_of_length_le hblock.le, List.append_nil]

/-- The GUID of the settings and the path of the driver, as they stand in a configuration string.
Kind: D -/
def configGuid : Text := ucs2 "GUID=1d4caece5b338546a4a0fc4a94eea085"

@[inherit_doc configGuid]
def configPath : Text := ucs2 "PATH=01041400d9fce693178edf43b7f0913e58b1a7897fff0400"

/-- The rest of the string for the four octets of an option. Kind: D -/
def configValue (value : String) : Text :=
  configPath ++ ucs2 "&OFFSET=0000&WIDTH=0004&VALUE=" ++ ucs2 value

lemma switchMenu_ok : ∃ m, cfrCreateRuntimeComponents sampleFirmware
      [memoryOf (formOctets (switchForm 1 0))] noVariables = .ok m ∧
    m.vars.get [0x61] = some ⟨true, false, le32 1⟩ ∧ m.vars.locked [0x61] = false := by
  obtain ⟨_, hboot⟩ := switchBoot_ok 1 0 [] [] noVariables
  obtain ⟨m, hok, -⟩ := map_eq_ok.mp hboot
  have hvars := createdVariables_eq hok
  refine ⟨m, hok, (hvars.get [0x61]).trans ?_, (hvars.lock [0x61]).trans ?_⟩
  all_goals
    rw [← Boot.requests, switchBoot_requests]
    rfl

/-- The user switches the switch off. Kind: C -/
theorem routeConfig_own_option_sample :
    ∃ m vars', cfrCreateRuntimeComponents sampleFirmware
        [memoryOf (formOctets (switchForm 1 0))] noVariables = .ok m ∧
      setupMenuRouteConfig true .oneValue efiSuccess
        (configString lowerDigit configGuid [0x61] (configValue "00000000")) m.vars =
          .ok (efiSuccess, vars') ∧
      vars'.get [0x61] = some ⟨true, false, [0, 0, 0, 0]⟩ := by
  obtain ⟨m, hok, hget, hunlocked⟩ := switchMenu_ok
  have hr : OptionHeader.request ⟨2, 0, 0⟩ [0x61] (le32 1) ∈
      [memoryOf (formOctets (switchForm 1 0))].flatMap (hobRequests sampleFirmware) := by
    change _ ∈ (switchBoot 1 0 [] []).requests
    rw [switchBoot_requests]
    exact List.mem_singleton_self _
  have hblock : ConfigRouting.oneValue.configToBlock
      (configString lowerDigit configGuid [0x61] (configValue "00000000")) (le32 1) =
        (efiSuccess, [0, 0, 0, 0]) := by decide +kernel
  obtain ⟨v, vars', status, hv, hrouted, hroute⟩ := routeConfig_own_option
    hexDigitValue_lowerDigit hok hr (by decide : ampersand ∉ configGuid) (configValue "00000000")
    true .oneValue efiSuccess
  have hname : (OptionHeader.request ⟨2, 0, 0⟩ [0x61] (le32 1)).name = [0x61] := rfl
  obtain rfl : v = ⟨true, false, le32 1⟩ := Option.some.inj (hv.symm.trans hget)
  rw [hname, hblock] at hrouted hroute
  obtain ⟨rfl, hwritten⟩ := hrouted.of_unlocked hunlocked efiError_efiSuccess
  exact ⟨m, vars', hok, hroute.trans (if_neg (by decide)), hwritten⟩

end NucBios.Setup
