import NucBios.Ethernet.Interface
import NucBios.Uefi.Print

/-!
# Creating the members

Where the BMC has no EthernetInterface yet, the host creates one for every instance the HII
database publishes: it posts the questions of the instance and maps the configure language of the
instance to the URI the BMC answers with. Where the member is there and lacks a property, the host
patches it. Either way the ETag is stored afterwards if the driver reports no error.

One instance can fail in four places: its payload, the POST, the `Location` header, the map.
`provisioningEthernetInterfaceResource_cases` says what each outcome leaves behind. The status of
the pass is meant to say that all members were created, but every round of the loop overwrites it:

* `provisionLoop_success_iff`: it is the status of the last instance, whatever came before;
* `provisioning_truthful_iff`: so it tells the truth exactly when a last instance that was created
  comes after instances that all were;
* `provisioning_hides_failed_post`: and otherwise an ETag is stored for a collection that was not
  provisioned.
-/

namespace NucBios.Ethernet

open Lib Uefi

/-! ### The config-language map -/

/-- `EFI_STRING`, without its terminator. Kind: D -/
abbrev EfiString := List UInt16

/-- Which URI belongs to a configure language. A language has one URI, the one set last. Kind: D -/
structure ConfigLangMap where
  entries : List (EfiString × EfiString)
  nodup : (entries.map Prod.fst).Nodup

namespace ConfigLangMap

/-- The map a boot starts with. Kind: D -/
def empty : ConfigLangMap := ⟨[], List.nodup_nil⟩

/-- `RedfishSetRedfishUri`, when it succeeds. Kind: D -/
def set (m : ConfigLangMap) (lang uri : EfiString) : ConfigLangMap where
  entries := (lang, uri) :: m.entries.filter fun e => e.1 ≠ lang
  nodup := by
    rw [List.map_cons, List.nodup_cons]
    constructor
    · simp
    · exact m.nodup.sublist (List.filter_sublist.map Prod.fst)

/-- `RedfishGetRedfishUri`. Kind: D -/
def uri? (m : ConfigLangMap) (lang : EfiString) : Option EfiString :=
  (m.entries.find? fun e => e.1 = lang).map Prod.snd

/-- `RedfishGetConfigLanguage`. Kind: D -/
def lang? (m : ConfigLangMap) (uri : EfiString) : Option EfiString :=
  (m.entries.find? fun e => e.2 = uri).map Prod.fst

@[simp] theorem lang?_empty (uri : EfiString) : empty.lang? uri = none := rfl

lemma mem_of_lang?_eq_some {m : ConfigLangMap} {lang uri : EfiString}
    (h : m.lang? uri = some lang) :
    (lang, uri) ∈ m.entries := by
  obtain ⟨e, hfind, rfl⟩ := Option.map_eq_some_iff.mp h
  have huri : e.2 = uri := by simpa using List.find?_some hfind
  exact huri ▸ List.mem_of_find?_eq_some hfind

@[simp] theorem lang?_set_self (m : ConfigLangMap) (lang uri : EfiString) :
    (m.set lang uri).lang? uri = some lang := by
  simp [lang?, set]

end ConfigLangMap

/-! ### What a pass reads and changes -/

/-- A request that changes the BMC. Kind: D -/
inductive Request where
  | post (collection : EfiString) (body : Json)
  | patch (member : EfiString) (body : Json)

/-- What the host keeps, and what the BMC has taken from it. Kind: D -/
structure Host where
  taken : List Request
  map : ConfigLangMap
  /-- The ETag stored for a URI. -/
  etags : EfiString → Option ℕ
  /-- The questions of the instance with this configure language. -/
  questions : EfiString → EthCfg

/-- `REDFISH_FEATURE_ARRAY_TYPE_CONFIG_LANG`: an instance the HII database publishes. Kind: D -/
structure ConfigLang where
  index : UInt64
  configureLang : EfiString

/-- The answer of a service that knows no warning: it succeeds or fails. Kind: D -/
structure Verdict where
  status : EfiStatus
  plain : status = efiSuccess ∨ efiError status = true

def Verdict.success : Verdict := ⟨efiSuccess, Or.inl rfl⟩

lemma Verdict.eq_success (v : Verdict) (h : efiError v.status = false) : v.status = efiSuccess :=
  v.plain.resolve_right (by rw [h]; exact Bool.false_ne_true)

/-- The answers the provisioning of one instance gets. Kind: D -/
structure InstanceAnswers where
  reads : PropertyReads
  /-- `BuildEthernetInterfacePayload`, which may run out of memory. -/
  build : EfiStatus
  post : EfiStatus
  /-- `GetHttpResponseLocation` and the URI it finds. -/
  location : EfiStatus × Option EfiString
  setRedfishUri : Verdict

/-- The answers the patch of one member gets. Kind: D -/
structure PatchAnswers where
  reads : PropertyReads
  build : EfiStatus
  patch : EfiStatus

/-! ### The driver -/

/-- `eth0` is the instance `{1}`. Kind: D -/
def memberId (instanceNumber : UInt64) : List UInt8 :=
  asciiSPrint 16 (ascii "eth" ++
    decimal32 (if instanceNumber = 0 then 0 else instanceNumber - 1).toUInt32)

/-- The body posted for an instance. Kind: D -/
def memberBody (l : ConfigLang) (a : InstanceAnswers) (w : Host) : Json :=
  buildEthernetInterfacePayload a.reads (some (memberId l.index)) (w.questions l.configureLang)

/-- Source: `EthernetInterfaceCommon.c` `ProvisioningEthernetInterfaceResource`
Kind: D -/
def provisioningEthernetInterfaceResource (collection : EfiString) (l : ConfigLang)
    (a : InstanceAnswers) (w : Host) : EfiStatus × Host :=
  if efiError a.build then (a.build, w)
  else if efiError a.post then (a.post, w)
  else
    let posted := { w with taken := w.taken ++ [.post collection (memberBody l a w)] }
    match efiError a.location.1, a.location.2 with
    | false, some uri =>
        (a.setRedfishUri.status,
          if efiError a.setRedfishUri.status then posted
          else { posted with map := w.map.set l.configureLang uri })
    | _, _ => (efiDeviceError, posted)

/-- One round overwrites the status of the round before. Kind: D -/
def provisionLoop (collection : EfiString) (instances : List (ConfigLang × InstanceAnswers))
    (start : EfiStatus × Host) : EfiStatus × Host :=
  instances.foldl
    (fun r x => provisioningEthernetInterfaceResource collection x.1 x.2 r.2) start

/-- Source: `EthernetInterfaceCommon.c` `ProvisioningEthernetInterfaceResources`
Kind: D -/
def provisioningEthernetInterfaceResources (collection : EfiString) (published : EfiStatus)
    (instances : List (ConfigLang × InstanceAnswers)) (w : Host) : EfiStatus × Host :=
  if efiError published || instances.isEmpty then (efiNotFound, w)
  else provisionLoop collection instances (published, w)

/-- Source: `EthernetInterfaceCommon.c` `ProvisioningEthernetInterfaceExistResource`
Kind: D -/
def provisioningEthernetInterfaceExistResource (member : EfiString) (a : PatchAnswers) (w : Host) :
    EfiStatus × Host :=
  match w.map.lang? member with
  | none => (efiNotFound, w)
  | some lang =>
      if efiError a.build then (a.build, w)
      else if efiError a.patch then (a.patch, w)
      else
        (a.patch, { w with
          taken := w.taken ++
            [.patch member (buildEthernetInterfacePayload a.reads none (w.questions lang))] })

/-- A call of `RedfishResourceProvisioningResource`: its arguments, and the answers it gets. The
published instances are asked for in POST mode, `patch` in PATCH mode; `etag` is what
`SetEtagFromUri` gets, `none` when it gets nothing.
Kind: D -/
structure ProvisioningCall where
  this : Bool
  uri : EfiString
  postMode : Bool
  service : Bool
  get : EfiStatus
  published : EfiStatus
  instances : List (ConfigLang × InstanceAnswers)
  patch : PatchAnswers
  etag : Option ℕ

/-- Source: `EthernetInterfaceCommon.c` `RedfishProvisioningResourceCommon`
Kind: D -/
def redfishProvisioningResourceCommon (c : ProvisioningCall) (resourceExist : Bool) (w : Host) :
    EfiStatus × Host :=
  if resourceExist then provisioningEthernetInterfaceExistResource c.uri c.patch w
  else provisioningEthernetInterfaceResources c.uri c.published c.instances w

/-- `SetEtagFromUri`. Kind: D -/
def Host.setEtag (w : Host) (uri : EfiString) (etag : Option ℕ) : Host :=
  match etag with
  | none => w
  | some e => { w with etags := Function.update w.etags uri (some e) }

@[simp] theorem map_setEtag (w : Host) (uri : EfiString) (etag : Option ℕ) :
    (w.setEtag uri etag).map = w.map := by
  cases etag <;> rfl

/-- Source: `EthernetInterfaceDxe.c` `RedfishResourceProvisioningResource`
Kind: D -/
def redfishResourceProvisioningResource (c : ProvisioningCall) (w : Host) : EfiStatus × Host :=
  if !c.this || c.uri.isEmpty then (efiInvalidParameter, w)
  else if !c.service then (efiNotReady, w)
  else if efiError c.get then (c.get, w)
  else
    let r := redfishProvisioningResourceCommon c (!c.postMode) w
    if efiError r.1 then r else (r.1, r.2.setEtag c.uri c.etag)

/-- Patching a member leaves the map alone. Kind: L -/
theorem map_provisioningEthernetInterfaceExistResource (member : EfiString) (a : PatchAnswers)
    (w : Host) : (provisioningEthernetInterfaceExistResource member a w).2.map = w.map := by
  unfold provisioningEthernetInterfaceExistResource
  split
  · rfl
  · split_ifs <;> rfl

/-! ### One instance -/

/-- The member was created and its URI is in the map: nothing failed. Kind: D -/
def InstanceAnswers.mapped (a : InstanceAnswers) : Option EfiString :=
  if efiError a.build || efiError a.post || efiError a.location.1 ||
    efiError a.setRedfishUri.status then none
  else a.location.2

/-- An instance is created and mapped, with success, or it fails, with an error and without
touching the map.
Kind: L -/
theorem provisioningEthernetInterfaceResource_cases (collection : EfiString) (l : ConfigLang)
    (a : InstanceAnswers) (w : Host) :
    (∃ uri, a.mapped = some uri ∧
      provisioningEthernetInterfaceResource collection l a w =
        (efiSuccess, { w with
          taken := w.taken ++ [.post collection (memberBody l a w)]
          map := w.map.set l.configureLang uri })) ∨
    (a.mapped = none ∧
      ∃ status taken, efiError status = true ∧
        provisioningEthernetInterfaceResource collection l a w =
          (status, { w with taken := taken })) := by
  unfold provisioningEthernetInterfaceResource InstanceAnswers.mapped
  rcases hbuild : efiError a.build with _ | _
  case true => exact Or.inr ⟨by simp, a.build, w.taken, hbuild, by simp⟩
  rcases hpost : efiError a.post with _ | _
  case true => exact Or.inr ⟨by simp, a.post, w.taken, hpost, by simp⟩
  -- From here on the BMC has taken the member, whatever the driver makes of the response.
  set taken := w.taken ++ [.post collection (memberBody l a w)]
  rcases hlocation : efiError a.location.1 with _ | _
  case true => exact Or.inr ⟨by simp, efiDeviceError, taken, by decide, by simp⟩
  rcases huri : a.location.2 with _ | uri
  case none => exact Or.inr ⟨by simp, efiDeviceError, taken, by decide, by simp⟩
  rcases hset : efiError a.setRedfishUri.status with _ | _
  case true => exact Or.inr ⟨by simp, a.setRedfishUri.status, taken, hset, by simp⟩
  exact Or.inl ⟨uri, by simp, by simp [a.setRedfishUri.eq_success hset]⟩

lemma provisioningEthernetInterfaceResource_success_iff (collection : EfiString) (l : ConfigLang)
    (a : InstanceAnswers) (w : Host) :
    (provisioningEthernetInterfaceResource collection l a w).1 = efiSuccess ↔
      a.mapped.isSome := by
  obtain ⟨uri, hmapped, hrun⟩ | ⟨hmapped, status, taken, herror, hrun⟩ :=
    provisioningEthernetInterfaceResource_cases collection l a w
  · simp [hmapped, hrun]
  · rw [hmapped, hrun]
    constructor
    · rintro rfl
      exact absurd herror (by decide)
    · exact fun h => absurd h (by decide)

lemma efiError_provisioningEthernetInterfaceResource (collection : EfiString) (l : ConfigLang)
    (a : InstanceAnswers) (w : Host) :
    efiError (provisioningEthernetInterfaceResource collection l a w).1 = a.mapped.isNone := by
  obtain ⟨uri, hmapped, hrun⟩ | ⟨hmapped, status, taken, herror, hrun⟩ :=
    provisioningEthernetInterfaceResource_cases collection l a w
  · simp [hmapped, hrun]
  · simp [hmapped, hrun, herror]

/-! ### The pass over all instances -/

section Pass

variable (collection : EfiString) {instances : List (ConfigLang × InstanceAnswers)}

theorem provisionLoop_cons (x : ConfigLang × InstanceAnswers)
    (xs : List (ConfigLang × InstanceAnswers)) (start : EfiStatus × Host) :
    provisionLoop collection (x :: xs) start = provisionLoop collection xs
      (provisioningEthernetInterfaceResource collection x.1 x.2 start.2) := rfl

/-- The last round is all that is left of the status. Kind: L -/
theorem provisionLoop_last (hne : instances ≠ []) (start : EfiStatus × Host) :
    ∃ w, provisionLoop collection instances start =
      provisioningEthernetInterfaceResource collection (instances.getLast hne).1
        (instances.getLast hne).2 w := by
  refine ⟨(provisionLoop collection instances.dropLast start).2, ?_⟩
  conv_lhs => rw [← List.dropLast_append_getLast hne]
  rw [provisionLoop, List.foldl_concat, provisionLoop]

theorem provisionLoop_success_iff (hne : instances ≠ []) (start : EfiStatus × Host) :
    (provisionLoop collection instances start).1 = efiSuccess ↔
      (instances.getLast hne).2.mapped.isSome := by
  obtain ⟨w, hlast⟩ := provisionLoop_last collection hne start
  rw [hlast, provisioningEthernetInterfaceResource_success_iff]

theorem efiError_provisionLoop (hne : instances ≠ []) (start : EfiStatus × Host) :
    efiError (provisionLoop collection instances start).1 =
      (instances.getLast hne).2.mapped.isNone := by
  obtain ⟨w, hlast⟩ := provisionLoop_last collection hne start
  rw [hlast, efiError_provisioningEthernetInterfaceResource]

/-! ### What the status says -/

/-- The status and the ETag mean what they are documented to mean: all members created.
Kind: D -/
structure Truthful (published : EfiStatus) (instances : List (ConfigLang × InstanceAnswers))
    (w : Host) : Prop where
  status : (provisioningEthernetInterfaceResources collection published instances w).1 =
    efiSuccess ↔ ∀ x ∈ instances, x.2.mapped.isSome
  etag : ∀ c : ProvisioningCall, c.uri = collection → c.postMode = true →
    c.published = published → c.instances = instances →
    (redfishResourceProvisioningResource c w).2.etags ≠ w.etags →
    ∀ x ∈ instances, x.2.mapped.isSome

lemma provisioningEthernetInterfaceResources_eq {published : EfiStatus}
    (hpublished : efiError published = false) (hne : instances ≠ []) (w : Host) :
    provisioningEthernetInterfaceResources collection published instances w =
      provisionLoop collection instances (published, w) := by
  rw [provisioningEthernetInterfaceResources, hpublished, Bool.false_or,
    if_neg (by simpa using hne)]

end Pass

/-- Creating members stores no ETag. Kind: L -/
theorem etags_provisionLoop (collection : EfiString)
    (instances : List (ConfigLang × InstanceAnswers)) (start : EfiStatus × Host) :
    (provisionLoop collection instances start).2.etags = start.2.etags := by
  induction instances generalizing start with
  | nil => rfl
  | cons x xs ih =>
      rw [provisionLoop_cons, ih]
      obtain ⟨uri, -, hrun⟩ | ⟨-, status, taken, -, hrun⟩ :=
        provisioningEthernetInterfaceResource_cases collection x.1 x.2 start.2
      · rw [hrun]
      · rw [hrun]

/-- A call is refused, or the resource is provisioned and the ETag stored if that is no error.
Kind: L -/
theorem redfishResourceProvisioningResource_cases (c : ProvisioningCall) (w : Host) :
    (∃ status, redfishResourceProvisioningResource c w = (status, w)) ∨
    ∃ r, redfishProvisioningResourceCommon c (!c.postMode) w = r ∧
      redfishResourceProvisioningResource c w =
        if efiError r.1 then r else (r.1, r.2.setEtag c.uri c.etag) := by
  unfold redfishResourceProvisioningResource
  by_cases hargs : (!c.this || c.uri.isEmpty) = true
  · exact Or.inl ⟨efiInvalidParameter, if_pos hargs⟩
  by_cases hservice : (!c.service) = true
  · exact Or.inl ⟨efiNotReady, by rw [if_neg hargs, if_pos hservice]⟩
  by_cases hget : efiError c.get = true
  · exact Or.inl ⟨c.get, by rw [if_neg hargs, if_neg hservice, if_pos hget]⟩
  exact Or.inr ⟨_, rfl, by rw [if_neg hargs, if_neg hservice, if_neg hget]⟩

/-- In POST mode an ETag is stored only if the last instance was created and mapped. Kind: L -/
theorem last_mapped_of_etags_ne {c : ProvisioningCall} (hmode : c.postMode = true)
    (hpublished : efiError c.published = false) (hne : c.instances ≠ []) {w : Host}
    (h : (redfishResourceProvisioningResource c w).2.etags ≠ w.etags) :
    (c.instances.getLast hne).2.mapped.isSome := by
  obtain ⟨status, hrefused⟩ | ⟨r, hr, hcall⟩ := redfishResourceProvisioningResource_cases c w
  · exact absurd (by rw [hrefused]) h
  rw [hmode, Bool.not_true, redfishProvisioningResourceCommon, if_neg Bool.false_ne_true,
    provisioningEthernetInterfaceResources_eq _ hpublished hne] at hr
  rcases hlast : (c.instances.getLast hne).2.mapped with _ | uri
  · -- The last instance failed, so the call fails and stores nothing.
    refine absurd ?_ h
    rw [hcall, ← hr, efiError_provisionLoop _ hne, hlast, Option.isNone_none, if_pos rfl,
      etags_provisionLoop]
  · rfl

/-- **When the status tells the truth.** The status of a pass and the ETag stored after it mean that
every published instance was created and mapped exactly when the last instance was not, or all of
them were.
Kind: P -/
theorem provisioning_truthful_iff (collection : EfiString) {published : EfiStatus}
    {instances : List (ConfigLang × InstanceAnswers)} (hpublished : efiError published = false)
    (hne : instances ≠ []) (w : Host) :
    Truthful collection published instances w ↔
      ((instances.getLast hne).2.mapped.isSome → ∀ x ∈ instances, x.2.mapped.isSome) := by
  have hstatus : (provisioningEthernetInterfaceResources collection published instances w).1 =
      efiSuccess ↔ (instances.getLast hne).2.mapped.isSome := by
    rw [provisioningEthernetInterfaceResources_eq collection hpublished hne,
      provisionLoop_success_iff collection hne]
  constructor
  · intro h hlast
    exact h.status.mp (hstatus.mpr hlast)
  · intro h
    refine ⟨?_, ?_⟩
    · exact ⟨fun hs => h (hstatus.mp hs), fun hall => hstatus.mpr (hall _ (List.getLast_mem hne))⟩
    · rintro c - hmode rfl rfl hetags
      exact h (last_mapped_of_etags_ne hmode hpublished hne hetags)

/-- An instance for which nothing fails. -/
def sampleCreated (uri : String) : InstanceAnswers where
  reads := ⟨fun _ => true, none⟩
  build := efiSuccess
  post := efiSuccess
  location := (efiSuccess, some (ucs2 uri))
  setRedfishUri := .success

/-- An instance whose POST fails. -/
def sampleRefused : InstanceAnswers := { sampleCreated "" with post := efiDeviceError }

/-- Two instances, the second of which is created. -/
def sampleInstances (first : InstanceAnswers) : List (ConfigLang × InstanceAnswers) :=
  [(⟨1, ucs2 "\x7b1\x7d"⟩, first), (⟨2, ucs2 "\x7b2\x7d"⟩, sampleCreated "/eth1")]

/-- A host at the start of a boot. -/
def sampleHost : Host where
  taken := []
  map := .empty
  etags := fun _ => none
  questions := fun _ => ⟨true, fun _ => []⟩

/-- Both instances are created, and the status says so. Kind: C -/
theorem provisioning_truthful_both_created :
    sampleInstances (sampleCreated "/eth0") ≠ [] ∧
      Truthful (ucs2 "/") efiSuccess (sampleInstances (sampleCreated "/eth0")) sampleHost :=
  ⟨by decide, (provisioning_truthful_iff (ucs2 "/") (by decide) (by decide) sampleHost).mpr
    (by decide +kernel)⟩

/-- The call that provisions two instances, the first of which is refused. -/
def sampleCall : ProvisioningCall where
  this := true
  uri := ucs2 "/"
  postMode := true
  service := true
  get := efiSuccess
  published := efiSuccess
  instances := sampleInstances sampleRefused
  patch := ⟨⟨fun _ => true, none⟩, efiSuccess, efiSuccess⟩
  etag := some 7

/-- The POST for the first instance fails and the second is created: the driver reports success and
stores the ETag of the collection, and the first instance has no member.
Kind: C -/
theorem provisioning_hides_failed_post :
    (provisioningEthernetInterfaceResources (ucs2 "/") efiSuccess
      (sampleInstances sampleRefused) sampleHost).1 = efiSuccess ∧
    (redfishResourceProvisioningResource sampleCall sampleHost).1 = efiSuccess ∧
    (redfishResourceProvisioningResource sampleCall sampleHost).2.etags (ucs2 "/") = some 7 ∧
    (redfishResourceProvisioningResource sampleCall sampleHost).2.map.uri? (ucs2 "\x7b1\x7d") =
      none ∧
    ¬ ∀ x ∈ sampleInstances sampleRefused, x.2.mapped.isSome := by
  refine ⟨?_, ?_, ?_, ?_, ?_⟩ <;> decide +kernel

end NucBios.Ethernet
