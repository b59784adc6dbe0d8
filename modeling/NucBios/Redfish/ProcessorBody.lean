import NucBios.Redfish.Inventory

/-!
# The body that reports a processor

The fourth inventory request, and the one whose body can outgrow the buffer. Its strings always fit,
however they are escaped; the numbers, the identification registers and the closing brace come
behind them, and each is dropped without a trace if the room that is left does not do.

* `foldl_written_eq`: of members appended one by one, those that fit are kept.
* `processor_body_complete_iff`: the body is an object with everything in it exactly if the whole of
  it is shorter than the buffer. `quoted_processor_loses_speed` is a processor for which it is not.
-/

namespace NucBios.Redfish

open Lib Uefi

/-! ### The text -/

/-- `@odata.type` and `Status` lead, so the object is never empty. Kind: D -/
def processorFront (enabled : Bool) : List UInt8 :=
  asciiSPrint nucRedfishJsonMax
    (ascii "\x7b\"@odata.type\":\"#Processor.v1_14_0.Processor\"" ++
      ascii ",\"Status\":\x7b\"State\":\"" ++
      (if enabled then ascii "Enabled" else ascii "Disabled") ++
      ascii "\",\"Health\":\"OK\"\x7d" ++
      ascii ",\"ProcessorArchitecture\":\"x86\"" ++ ascii ",\"InstructionSet\":\"x86-64\"")

/-- `CHAR8 IdObject[80]` Kind: D -/
def idObject (idRegisters : List UInt8) : List UInt8 :=
  asciiSPrint 80 (ascii ",\"ProcessorId\":\x7b\"IdentificationRegisters\":\"" ++ idRegisters ++
    ascii "\"\x7d")

/-- The text of the body. Kind: D -/
def processorBody (p : Processor) : List UInt8 :=
  let body := processorFront p.enabled
  let body :=
    match p.processorType with
    | none => body
    | some t => appendJsonString body nucRedfishJsonMax (ascii "ProcessorType") t.text
  let body := appendJsonString body nucRedfishJsonMax (ascii "Socket") p.socket.text
  let body := appendJsonString body nucRedfishJsonMax (ascii "Name") p.socket.text
  let body := appendJsonString body nucRedfishJsonMax (ascii "Manufacturer") p.manufacturer.text
  let body := appendJsonString body nucRedfishJsonMax (ascii "Model") p.model.text
  let body := appendJsonString body nucRedfishJsonMax (ascii "SerialNumber") p.serialNumber.text
  let body := appendJsonString body nucRedfishJsonMax (ascii "PartNumber") p.partNumber.text
  let body := appendJsonNumber body nucRedfishJsonMax (ascii "MaxSpeedMHz") p.maxSpeedMhz
  let body := appendJsonNumber body nucRedfishJsonMax (ascii "OperatingSpeedMHz")
    p.operatingSpeedMhz
  let body := appendJsonNumber body nucRedfishJsonMax (ascii "TotalCores") p.totalCores
  let body := appendJsonNumber body nucRedfishJsonMax (ascii "TotalEnabledCores")
    p.totalEnabledCores
  let body := appendJsonNumber body nucRedfishJsonMax (ascii "TotalThreads") p.totalThreads
  let body :=
    if p.idRegisters.text ≠ [] then
      asciiStrCatS nucRedfishJsonMax body (idObject p.idRegisters.text)
    else body
  asciiStrCatS nucRedfishJsonMax body (ascii "\x7d")

/-- Source: `NucRedfishInventory.c` `NucRedfishBuildProcessorPost`
Kind: D -/
def buildProcessorPost (p : Processor) (allocated : Bool) : Except EfiStatus (List UInt8) :=
  if allocated then .ok (processorBody p) else .error efiOutOfResources

/-! ### Its members -/

def processorFirst : Json.Member := odataTypeMember (ascii "#Processor.v1_14_0.Processor")

def processorStatusMember (enabled : Bool) : Json.Member :=
  stateMember (if enabled then ascii "Enabled" else ascii "Disabled")

def processorFirsts (enabled : Bool) : List Json.Member :=
  [processorStatusMember enabled,
    stringMember (ascii "ProcessorArchitecture") (by decide +kernel) (ascii "x86"),
    stringMember (ascii "InstructionSet") (by decide +kernel) (ascii "x86-64")]

lemma processorFront_eq (enabled : Bool) : processorFront enabled =
    0x7B :: (processorFirst.written ++
      Json.writtenAll (processorFirsts enabled)) := by
  cases enabled <;> decide +kernel

/-- `"ProcessorId":{"IdentificationRegisters":"…"}` Kind: D -/
def processorIdMember (idRegisters : List UInt8) : Json.Member :=
  .ofObj (ascii "ProcessorId") (by decide +kernel)
    (stringMember (ascii "IdentificationRegisters") (by decide +kernel) idRegisters) []

lemma flatMap_escapeOctet_of_plain : ∀ {s : List UInt8}, (∀ c ∈ s, Json.Plain c) →
    s.flatMap escapeOctet = s
  | [], _ => rfl
  | c :: s, h => by
      obtain ⟨hctl, hquote, hslash⟩ := h c List.mem_cons_self
      have hc : escapeOctet c = [c] := by
        rw [escapeOctet, if_neg (not_or.mpr ⟨hquote, hslash⟩), if_neg (UInt8.not_lt.mpr hctl)]
      rw [List.flatMap_cons, hc, flatMap_escapeOctet_of_plain fun d hd =>
        h d (List.mem_cons_of_mem c hd), List.singleton_append]

section Id

variable {idRegisters : List UInt8} (hplain : ∀ c ∈ idRegisters, Json.Plain c)

include hplain

lemma length_processorIdMember :
    (0x2C :: (processorIdMember idRegisters).written).length = idRegisters.length + 45 := by
  have hname : (ascii "ProcessorId").length = 11 ∧
      (ascii "IdentificationRegisters").length = 23 := by decide +kernel
  simp only [processorIdMember, Json.Member.written, Json.Member.ofObj, stringMember,
    Json.writtenAll, flatMap_escapeOctet_of_plain hplain, List.length_cons, List.length_append,
    List.length_nil, List.flatMap_nil, hname]
  omega

lemma idObject_eq (hlen : idRegisters.length < 19) :
    idObject idRegisters = 0x2C :: (processorIdMember idRegisters).written := by
  have hwritten := length_processorIdMember hplain
  have htext : ascii ",\"ProcessorId\":\x7b\"IdentificationRegisters\":\"" ++ idRegisters ++
      ascii "\"\x7d" = 0x2C :: (processorIdMember idRegisters).written := by
    simp [ascii, processorIdMember, Json.Member.written, Json.Member.ofObj, stringMember,
      Json.writtenAll, flatMap_escapeOctet_of_plain hplain]
  rw [idObject, htext, asciiSPrint_of_lt (by omega)]

end Id

/-- The word for the type, if there is one. Kind: D -/
def Processor.typeText (p : Processor) : List UInt8 := p.processorType.elim [] ProcessorType.text

lemma length_processorType_le (p : Processor) : p.typeText.length ≤ 4 := by
  unfold Processor.typeText
  rcases p.processorType with _ | t
  · decide
  · cases t <;> decide +kernel

/-- The appends that cannot fail. Kind: D -/
def processorStrings (p : Processor) : List Append :=
  [.word (ascii "ProcessorType") (by decide +kernel) p.typeText (length_processorType_le p),
    .field (ascii "Socket") (by decide +kernel) p.socket,
    .field (ascii "Name") plain_name p.socket,
    .field (ascii "Manufacturer") plain_manufacturer p.manufacturer,
    .field (ascii "Model") plain_model p.model,
    .field (ascii "SerialNumber") plain_serialNumber p.serialNumber,
    .field (ascii "PartNumber") plain_partNumber p.partNumber]

/-- The appends that can. Kind: D -/
def processorNumbers (p : Processor) : List Append :=
  [.number (ascii "MaxSpeedMHz") (by decide +kernel) (by decide +kernel) p.maxSpeedMhz
      p.maxSpeedMhz_lt,
    .number (ascii "OperatingSpeedMHz") (by decide +kernel) (by decide +kernel)
      p.operatingSpeedMhz p.operatingSpeedMhz_lt,
    .number (ascii "TotalCores") (by decide +kernel) (by decide +kernel) p.totalCores
      p.totalCores_lt,
    .number (ascii "TotalEnabledCores") (by decide +kernel) (by decide +kernel)
      p.totalEnabledCores p.totalEnabledCores_lt,
    .number (ascii "TotalThreads") (by decide +kernel) (by decide +kernel) p.totalThreads
      p.totalThreads_lt,
    .printed (p.idRegisters.text ≠ []) (idObject p.idRegisters.text)
      (processorIdMember p.idRegisters.text) 63
      (fun _ => idObject_eq p.plain_idRegisters p.idRegisters.fits)
      (fun _ => by
        have hfits := p.idRegisters.fits
        rw [idObject_eq p.plain_idRegisters hfits, length_processorIdMember p.plain_idRegisters]
        omega)]

lemma processorBody_eq (p : Processor) : processorBody p =
    (Append.allTexts (processorStrings p ++ processorNumbers p)).foldl
      (asciiStrCatS nucRedfishJsonMax) (processorFront p.enabled) := by
  rw [Append.foldl_allTexts_eq]
  simp only [processorStrings, processorNumbers, Append.word, List.cons_append, List.nil_append,
    List.foldl_cons, List.foldl_nil, Append.foldl_field, Append.foldl_string, Append.foldl_number,
    Append.foldl_printed, processorBody, Processor.typeText]
  rcases p.processorType with _ | _ <;>
    simp only [Option.elim_none, Option.elim_some, appendJsonString_nil]

/-! ### How long it would be -/

/-- The octets of a string's member: a quotation mark or a backslash takes two. Kind: D -/
def stringSize (name value : List UInt8) : ℕ :=
  if value = [] then 0
  else name.length + 6 + value.length + value.countP fun c => c = 0x22 ∨ c = 0x5C

/-- The octets of a number's member. Kind: D -/
def numberSize (name : List UInt8) (value : UInt32) : ℕ :=
  if value = 0 then 0 else name.length + 4 + (decimal32 value).length

/-- The octets of the whole body, were there room for it. Kind: D -/
def Processor.bodySize (p : Processor) : ℕ :=
  (processorFront p.enabled).length + stringSize (ascii "ProcessorType") p.typeText +
    stringSize (ascii "Socket") p.socket.text + stringSize (ascii "Name") p.socket.text +
    stringSize (ascii "Manufacturer") p.manufacturer.text +
    stringSize (ascii "Model") p.model.text +
    stringSize (ascii "SerialNumber") p.serialNumber.text +
    stringSize (ascii "PartNumber") p.partNumber.text +
    numberSize (ascii "MaxSpeedMHz") p.maxSpeedMhz +
    numberSize (ascii "OperatingSpeedMHz") p.operatingSpeedMhz +
    numberSize (ascii "TotalCores") p.totalCores +
    numberSize (ascii "TotalEnabledCores") p.totalEnabledCores +
    numberSize (ascii "TotalThreads") p.totalThreads +
    (if p.idRegisters.text = [] then 0 else p.idRegisters.text.length + 45) + 1

lemma length_flatMap_escapeOctet : ∀ value : List UInt8, (value.flatMap escapeOctet).length =
    value.length + value.countP fun c => c = 0x22 ∨ c = 0x5C
  | [] => rfl
  | c :: value => by
      have ih := length_flatMap_escapeOctet value
      rw [List.flatMap_cons, List.length_append, ih, List.length_cons, List.countP_cons,
        escapeOctet]
      split_ifs <;> simp_all <;> omega

lemma size_string {name value : List UInt8} (hname : ∀ c ∈ name, Json.Plain c)
    (hvalue : value.length < nucRedfishStrMax) {bound : ℕ}
    (hbound : name.length + (value.flatMap escapeOctet).length + 6 ≤ bound) :
    (Append.string name hname value hvalue bound hbound).size = stringSize name value := by
  rw [Append.size, Append.flatten_texts]
  show (Json.writtenAll (stringMembers name hname value)).length = _
  unfold stringMembers stringSize
  split_ifs
  · rfl
  · simp only [Json.writtenAll, Json.Member.written, stringMember, List.flatMap_cons,
      List.flatMap_nil, List.length_append, List.length_cons, List.length_nil,
      length_flatMap_escapeOctet]
    omega

lemma size_printed {present : Prop} [Decidable present] {text : List UInt8} {m : Json.Member}
    {bound : ℕ} (htext : present → text = 0x2C :: m.written)
    (hbound : present → text.length ≤ bound) :
    (Append.printed present text m bound htext hbound).size =
      if present then (0x2C :: m.written).length else 0 := by
  show (if present then [text] else []).flatten.length = _
  split_ifs with h
  · rw [List.flatten_singleton, htext h]
  · rfl

lemma size_number {name : List UInt8} (hname : ∀ c ∈ name, Json.Plain c)
    (hlen : name.length ≤ 17) {value : UInt32} (hvalue : value.toNat < 2 ^ 31) :
    (Append.number name hname hlen value hvalue).size = numberSize name value := by
  have hwritten : (0x2C :: (numberMember name hname value).written).length =
      name.length + 4 + (decimal32 value).length := by
    simp only [Json.Member.written, numberMember, List.length_cons, List.length_append]
    omega
  rw [Append.number, size_printed, hwritten, numberSize, ite_not]

/-- The size is that of the texts. Kind: L -/
theorem bodySize_eq (p : Processor) : p.bodySize = (processorFront p.enabled).length +
    (Append.allTexts (processorStrings p ++ processorNumbers p)).flatten.length := by
  rw [Append.length_flatten_allTexts]
  simp only [processorStrings, processorNumbers, List.cons_append, List.nil_append, List.map_cons,
    List.map_nil, List.sum_cons, List.sum_nil, Append.word, Append.field, size_string, size_number,
    size_printed, length_processorIdMember p.plain_idRegisters, ite_not, Processor.bodySize]
  omega

/-! ### What is kept when there is no room -/

/-- The append is one text, the whole member. Kind: D -/
def Append.Whole (a : Append) : Prop := a.texts = a.members.map fun m => 0x2C :: m.written

lemma whole_printed {present : Prop} [Decidable present] {text : List UInt8} {m : Json.Member}
    {bound : ℕ} (htext : present → text = 0x2C :: m.written)
    (hbound : present → text.length ≤ bound) :
    (Append.printed present text m bound htext hbound).Whole := by
  show (if present then [text] else []) = (if present then [m] else []).map _
  split_ifs with h
  · rw [htext h, List.map_singleton]
  · rfl

lemma flatMap_texts_of_whole : ∀ {appends : List Append}, (∀ a ∈ appends, a.Whole) →
    appends.flatMap Append.texts =
      (Append.allMembers appends).map fun m => 0x2C :: m.written
  | [], _ => rfl
  | a :: appends, h => by
      have ha : a.texts = _ := h a List.mem_cons_self
      rw [List.flatMap_cons, ha, flatMap_texts_of_whole fun b hb => h b (List.mem_cons_of_mem a hb),
        Append.allMembers, Append.allMembers, List.flatMap_cons, List.map_append]

/-- **Of members appended one by one, those that fit are kept.** Kind: P -/
theorem foldl_written_eq {size : ℕ} : ∀ (ms : List Json.Member) (dest : List UInt8),
    ∃ kept, kept.Sublist ms ∧
      (ms.map fun m => 0x2C :: m.written).foldl (asciiStrCatS size) dest =
        dest ++ Json.writtenAll kept
  | [], dest => ⟨[], List.Sublist.refl _, (List.append_nil dest).symm⟩
  | m :: ms, dest => by
      rw [List.map_cons, List.foldl_cons]
      by_cases hfits : dest.length + (0x2C :: m.written).length < size
      · obtain ⟨kept, hsub, hfold⟩ := foldl_written_eq ms (dest ++ 0x2C :: m.written)
        refine ⟨m :: kept, hsub.cons_cons m, ?_⟩
        rw [asciiStrCatS_of_lt hfits, hfold, List.append_assoc]
        rfl
      · have hskip : asciiStrCatS size dest (0x2C :: m.written) = dest := if_neg hfits
        obtain ⟨kept, hsub, hfold⟩ := foldl_written_eq ms dest
        exact ⟨kept, hsub.cons m, by rw [hskip, hfold]⟩

/-- A member that is not kept leaves its key out. Kind: L -/
theorem exists_key_not_mem {kept ms : List Json.Member} (hsub : kept.Sublist ms)
    (hne : kept ≠ ms) (hkeys : (ms.map Json.Member.key).Nodup) :
    ∃ m ∈ ms, m.key ∉ kept.map Json.Member.key := by
  by_contra hall
  push Not at hall
  refine hne (hsub.eq_of_length_le ?_)
  have hsubset : ms.map Json.Member.key ⊆ kept.map Json.Member.key := by
    intro key hkey
    obtain ⟨m, hm, rfl⟩ := List.mem_map.mp hkey
    exact hall m hm
  simpa using (hkeys.subperm hsubset).length_le

/-! ### When the body is complete -/

/-- What the record of a processor has to say, but for the identification registers. Kind: D -/
def Processor.fields (p : Processor) : Fields where
  strings :=
    [(ascii "ProcessorType", p.typeText), (ascii "Socket", p.socket.text),
      (ascii "Name", p.socket.text), (ascii "Manufacturer", p.manufacturer.text),
      (ascii "Model", p.model.text), (ascii "SerialNumber", p.serialNumber.text),
      (ascii "PartNumber", p.partNumber.text)]
  numbers :=
    [(ascii "MaxSpeedMHz", p.maxSpeedMhz.toNat),
      (ascii "OperatingSpeedMHz", p.operatingSpeedMhz.toNat),
      (ascii "TotalCores", p.totalCores.toNat),
      (ascii "TotalEnabledCores", p.totalEnabledCores.toNat),
      (ascii "TotalThreads", p.totalThreads.toNat)]
  arrays := []

/-- Everything the record says is among the members. Kind: D -/
structure Processor.ReportedIn (p : Processor) (members : List (List UInt8 × Json)) : Prop where
  fields : p.fields.ReportedIn members
  idRegisters : p.idRegisters.text ≠ [] →
    ∃ id, Json.lookup (ascii "ProcessorId") members = some (.obj id) ∧
      Json.lookup (ascii "IdentificationRegisters") id = some (.str p.idRegisters.text)

lemma nodup_processorKeys (p : Processor) :
    ((processorFirst :: processorFirsts p.enabled).map
      Json.Member.key ++ (processorStrings p ++ processorNumbers p).map Append.key).Nodup :=
  show [ascii "@odata.type", ascii "Status", ascii "ProcessorArchitecture", ascii "InstructionSet",
    ascii "ProcessorType", ascii "Socket", ascii "Name", ascii "Manufacturer", ascii "Model",
    ascii "SerialNumber", ascii "PartNumber", ascii "MaxSpeedMHz", ascii "OperatingSpeedMHz",
    ascii "TotalCores", ascii "TotalEnabledCores", ascii "TotalThreads",
    ascii "ProcessorId"].Nodup by decide +kernel

lemma map_blank_of_plain {s : List UInt8} (h : ∀ c ∈ s, Json.Plain c) : s.map blank = s := by
  have hid : ∀ c ∈ s, blank c = id c := fun c hc => if_neg (UInt8.not_lt.mpr (h c hc).1)
  rw [List.map_congr_left hid, List.map_id]

/-- With all appends made, everything is found. Kind: L -/
theorem processor_reported (p : Processor) : p.ReportedIn
    ((processorFirst :: (processorFirsts p.enabled ++
      Append.allMembers (processorStrings p ++ processorNumbers p))).map Json.Member.pair) := by
  have hkeys := nodup_processorKeys p
  refine ⟨⟨?_, ?_, List.forall_mem_nil _⟩, fun hne => ?_⟩
  · simp only [Processor.fields, List.forall_mem_cons]
    exact ⟨lookup_string hkeys (List.mem_of_getElem? (i := 0) rfl),
      lookup_string hkeys (List.mem_of_getElem? (i := 1) rfl),
      lookup_string hkeys (List.mem_of_getElem? (i := 2) rfl),
      lookup_string hkeys (List.mem_of_getElem? (i := 3) rfl),
      lookup_string hkeys (List.mem_of_getElem? (i := 4) rfl),
      lookup_string hkeys (List.mem_of_getElem? (i := 5) rfl),
      lookup_string hkeys (List.mem_of_getElem? (i := 6) rfl), List.forall_mem_nil _⟩
  · simp only [Processor.fields, List.forall_mem_cons]
    exact ⟨lookup_number hkeys (List.mem_of_getElem? (i := 7) rfl),
      lookup_number hkeys (List.mem_of_getElem? (i := 8) rfl),
      lookup_number hkeys (List.mem_of_getElem? (i := 9) rfl),
      lookup_number hkeys (List.mem_of_getElem? (i := 10) rfl),
      lookup_number hkeys (List.mem_of_getElem? (i := 11) rfl), List.forall_mem_nil _⟩
  · refine ⟨_, lookup_printed hkeys (List.mem_of_getElem? (i := 12) rfl) hne, ?_⟩
    have hblank := map_blank_of_plain p.plain_idRegisters
    show Json.lookup _ [(ascii "IdentificationRegisters",
      .str (p.idRegisters.text.map blank))] = _
    simp [Json.lookup, hblank]

lemma mem_members_printed {present : Prop} [Decidable present] {text : List UInt8}
    {m m' : Json.Member} {bound : ℕ} {htext : present → text = 0x2C :: m.written}
    {hbound : present → text.length ≤ bound}
    (h : m' ∈ (Append.printed present text m bound htext hbound).members) :
    present ∧ m' = m := by
  change m' ∈ if present then [m] else [] at h
  split_ifs at h with hpresent
  · exact ⟨hpresent, List.mem_singleton.mp h⟩
  · cases h

lemma lookup_ne_none_of_number {members : List (List UInt8 × Json)}
    {numbers : List (List UInt8 × ℕ)}
    (hreported : ∀ n ∈ numbers, n.2 ≠ 0 → (Json.lookup n.1 members).bind Json.nat = some n.2)
    {name : List UInt8} {hname : ∀ c ∈ name, Json.Plain c} {hlen : name.length ≤ 17}
    {value : UInt32} {hvalue : value.toNat < 2 ^ 31} {m : Json.Member}
    (hm : m ∈ (Append.number name hname hlen value hvalue).members)
    (hmem : (name, value.toNat) ∈ numbers) : Json.lookup m.key members ≠ none := by
  obtain ⟨hne, rfl⟩ := mem_members_printed hm
  intro hnone
  have h := hreported _ hmem fun h0 => hne (UInt32.toNat_inj.mp h0)
  rw [show name = (numberMember name hname value).key from rfl, hnone] at h
  cases h

/-- Every member behind the strings is one that has to be found. Kind: L -/
theorem lookup_ne_none_of_reported {p : Processor} {members : List (List UInt8 × Json)}
    (hreported : p.ReportedIn members) {m : Json.Member}
    (hm : m ∈ Append.allMembers (processorNumbers p)) : Json.lookup m.key members ≠ none := by
  have hnumbers := hreported.fields.numbers
  obtain ⟨a, ha, hm⟩ := List.mem_flatMap.mp hm
  simp only [processorNumbers, List.mem_cons, List.not_mem_nil, or_false] at ha
  rcases ha with rfl | rfl | rfl | rfl | rfl | rfl
  · exact lookup_ne_none_of_number hnumbers hm (List.mem_of_getElem? (i := 0) rfl)
  · exact lookup_ne_none_of_number hnumbers hm (List.mem_of_getElem? (i := 1) rfl)
  · exact lookup_ne_none_of_number hnumbers hm (List.mem_of_getElem? (i := 2) rfl)
  · exact lookup_ne_none_of_number hnumbers hm (List.mem_of_getElem? (i := 3) rfl)
  · exact lookup_ne_none_of_number hnumbers hm (List.mem_of_getElem? (i := 4) rfl)
  · obtain ⟨hne, rfl⟩ := mem_members_printed hm
    obtain ⟨id, hid, -⟩ := hreported.idRegisters hne
    intro hnone
    cases hid.symm.trans hnone

/-- The body up to the strings. Kind: L -/
theorem foldl_processorStrings (p : Processor) :
    ((processorStrings p).flatMap Append.texts).foldl (asciiStrCatS nucRedfishJsonMax)
        (processorFront p.enabled) =
      processorFront p.enabled ++ Json.writtenAll (Append.allMembers (processorStrings p)) := by
  have hbounds : (processorStrings p).map Append.bound =
      [(ascii "ProcessorType").length + 14, (ascii "Socket").length + 132,
        (ascii "Name").length + 132, (ascii "Manufacturer").length + 132,
        (ascii "Model").length + 132, (ascii "SerialNumber").length + 132,
        (ascii "PartNumber").length + 132] := rfl
  have hsum : (processorFront p.enabled).length +
      (((processorStrings p).map Append.bound).sum + 1) < nucRedfishJsonMax := by
    rw [hbounds]
    cases p.enabled <;> decide +kernel
  have hfits := fits_of_bound hsum
  rw [Append.allTexts, List.flatten_append, List.length_append] at hfits
  rw [foldl_asciiStrCatS (by omega), Append.flatten_flatMap_texts]

/-- The members in front of the ones that can be dropped. Kind: D -/
def processorKept (p : Processor) : List Json.Member :=
  processorFirsts p.enabled ++ Append.allMembers (processorStrings p)

/-- The body, still open, with some of the members behind the strings. Kind: D -/
def processorText (p : Processor) (kept : List Json.Member) : List UInt8 :=
  0x7B :: (processorFirst.written ++
    Json.writtenAll (processorKept p ++ kept))

/-- What the body is when not all of it fits: some of the members behind the strings are kept, and
the brace is or is not.
Kind: L -/
theorem exists_kept (p : Processor) :
    ∃ kept, kept.Sublist (Append.allMembers (processorNumbers p)) ∧
      processorBody p = asciiStrCatS nucRedfishJsonMax (processorText p kept) [0x7D] := by
  have hwhole : ∀ a ∈ processorNumbers p, a.Whole := by
    simp only [processorNumbers, List.forall_mem_cons]
    exact ⟨whole_printed _ _, whole_printed _ _, whole_printed _ _, whole_printed _ _,
      whole_printed _ _, whole_printed _ _, List.forall_mem_nil _⟩
  obtain ⟨kept, hsub, hfold⟩ := @foldl_written_eq nucRedfishJsonMax
    (Append.allMembers (processorNumbers p))
    (processorFront p.enabled ++ Json.writtenAll (Append.allMembers (processorStrings p)))
  refine ⟨kept, hsub, ?_⟩
  have hbrace : ascii "\x7d" = [0x7D] := by decide +kernel
  rw [processorBody_eq, Append.allTexts, List.flatMap_append, List.foldl_append, List.foldl_append,
    foldl_processorStrings, flatMap_texts_of_whole hwhole, hfold, hbrace, processorFront_eq]
  simp [processorText, processorKept, Json.writtenAll]

lemma bodySize_eq_length (p : Processor) :
    p.bodySize = (processorText p (Append.allMembers (processorNumbers p)) ++ [0x7D]).length := by
  rw [bodySize_eq, Append.flatten_allTexts, ← List.length_append, processorFront_eq]
  simp [processorText, processorKept, Append.allMembers, Json.writtenAll]

/-- A body that is JSON got its brace. Kind: L -/
theorem of_decode_closed {p : Processor} {kept : List Json.Member} {v : Json}
    (h : Json.decode (asciiStrCatS nucRedfishJsonMax (processorText p kept) [0x7D]) = some v) :
    (processorText p kept ++ [0x7D]).length < nucRedfishJsonMax ∧
      v = .obj ((processorFirst ::
        (processorKept p ++ kept)).map Json.Member.pair) := by
  unfold asciiStrCatS at h
  split_ifs at h with hfits
  · rw [processorText, Json.decode_obj] at h
    exact ⟨by rwa [List.length_append], (Option.some.inj h).symm⟩
  · rw [processorText, Json.decode_unclosed] at h
    cases h

/-- The key of a member that was dropped is not in the body. Kind: L -/
theorem key_not_mem_of_dropped {p : Processor} {kept : List Json.Member} {m : Json.Member}
    (hm : m ∈ Append.allMembers (processorNumbers p)) (hkey : m.key ∉ kept.map Json.Member.key) :
    m.key ∉ (processorFirst ::
      (processorKept p ++ kept)).map Json.Member.key := by
  have hkeys := nodup_processorKeys p
  rw [List.map_append, ← List.append_assoc] at hkeys
  have hmem : m.key ∈ (processorNumbers p).map Append.key :=
    (Append.keys_allMembers _).subset (List.mem_map_of_mem hm)
  rw [← List.cons_append, List.map_append, List.mem_append, not_or]
  refine ⟨fun hfront => ?_, hkey⟩
  rw [processorKept, ← List.cons_append, List.map_append] at hfront
  have hfront' := (List.mem_append.mp hfront).imp_right fun h =>
    (Append.keys_allMembers (processorStrings p)).subset h
  exact (List.nodup_append.mp hkeys).2.2 _ (List.mem_append.mpr hfront') _ hmem rfl

/-- A body longer than the buffer has lost something. Kind: P -/
theorem not_reported_of_le {p : Processor} (h : nucRedfishJsonMax ≤ p.bodySize)
    {members : List (List UInt8 × Json)}
    (hdecode : Json.decode (processorBody p) = some (.obj members)) : ¬ p.ReportedIn members := by
  intro hreported
  obtain ⟨kept, hsub, hbody⟩ := exists_kept p
  rw [hbody] at hdecode
  obtain ⟨hfits, hmembers⟩ := of_decode_closed hdecode
  cases hmembers
  have hne : kept ≠ Append.allMembers (processorNumbers p) := by
    rintro rfl
    rw [bodySize_eq_length] at h
    omega
  have hkeys := (nodup_processorKeys p).of_append_right
  rw [List.map_append] at hkeys
  obtain ⟨m, hm, hkey⟩ := exists_key_not_mem hsub hne
    (hkeys.of_append_right.sublist (Append.keys_allMembers _))
  refine lookup_ne_none_of_reported hreported hm (Json.lookup_eq_none ?_)
  rw [Append.map_fst_pair]
  exact key_not_mem_of_dropped hm hkey

/-- **When a processor's body is complete and faithful.** It is one JSON object with everything the
record says exactly if all of it together is shorter than the buffer.
Kind: C -/
theorem processor_body_complete_iff (p : Processor) :
    (∃ members, Json.decode (processorBody p) = some (.obj members) ∧ p.ReportedIn members) ↔
      p.bodySize < nucRedfishJsonMax := by
  constructor
  · rintro ⟨members, hdecode, hreported⟩
    exact Nat.lt_of_not_le fun h => not_reported_of_le h hdecode hreported
  · intro h
    rw [bodySize_eq] at h
    obtain ⟨hfold, hdecode⟩ := Append.foldl_allTexts (processorFront_eq p.enabled) h
    exact ⟨_, by rw [processorBody_eq, hfold, hdecode], processor_reported p⟩

/-- A socket all of whose strings are 63 quotation marks. Kind: D -/
def quotedSocket : SmbiosType4 where
  strings := [⟨List.replicate 63 0x22, by decide, by decide⟩]
  length := 48
  socket := 1
  processorType := 3
  processorManufacturer := 1
  processorId := 0x306D4
  processorVersion := 1
  maxSpeed := 3400
  currentSpeed := 3100
  status := 0x41
  serialNumber := 1
  partNumber := 1
  coreCount := 2
  enabledCoreCount := 2
  threadCount := 4
  coreCount2 := 2
  enabledCoreCount2 := 2
  threadCount2 := 4

/-- Its body is JSON, but the speeds, the number of threads and the identification registers are not
in it.
Kind: C -/
theorem quoted_processor_loses_speed :
    ∃ p, processor quotedSocket = some p ∧ p.maxSpeedMhz = 3400 ∧
      (Json.decode (processorBody p)).map (fun v =>
        [ascii "MaxSpeedMHz", ascii "OperatingSpeedMHz", ascii "TotalThreads",
          ascii "ProcessorId"].map fun key => (v.field key).isNone) =
        some [true, true, true, true] := by
  refine ⟨(processor quotedSocket).get (by decide +kernel), ?_, ?_, ?_⟩
  · rw [Option.some_get]
  · decide +kernel
  · decide +kernel

end NucBios.Redfish
