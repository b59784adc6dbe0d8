import Mathlib.Data.List.Destutter
import NucBios.Ethernet.Provisioning
import NucBios.Ethernet.Sync

/-!
# The walk over the collection

At every boot the collection driver takes the members of the BMC's collection one by one through
`HandleResource`. A member whose URI is not in the config-language map is identified first, and
being identified means to be adopted: its URI is set for the *first* configure language that is
published, the one instance the driver was written for. Each member is identified for itself, by
another driver, and nobody looks at what was adopted before.

`walk_adopts` says what a whole walk comes to, for any collection, any published languages and any
failures on the way:

* all adoptions are for the first language, and the URIs adopted are those of all members that can
  be identified, in order, a member that is met again right away not counting twice;
* so one URI is adopted for a language only if all those members have the same URI;
* the values of every member that is identified, checked and read go into the questions of the
  first instance, whichever member it is.

The last of two members wins (`two_members_one_instance`).
-/

namespace NucBios.Ethernet

open Lib Uefi

/-! ### A member and what handling it comes to -/

/-- A link of the collection with the answers that are got when its member is handled. The statuses
of a step include that of reaching the resource driver.
Kind: D -/
structure Member where
  /-- The URI, if the link is of type `RedfishCS_Type_Uri`. -/
  link : Option (List UInt8)
  /-- `StrAsciiToUnicode` finds memory. -/
  unicode : Bool
  schemaInfo : EfiStatus
  /-- The GET of the identify step, `RedfishIdentifyResource`, the query for the published
  languages and the setting of the URI. -/
  identifyGet : EfiStatus
  supported : Bool
  unified : EfiStatus
  setRedfishUri : Verdict
  /-- `GetArrayIndexFromArrayTypeConfigureLang`, and whether a list of one can be allocated. -/
  arrayIndex : EfiStatus
  listAllocated : Bool
  checkGet : EfiStatus
  checkBody : Json
  consumeGet : EfiStatus
  /-- The URI of the pending settings, if the member has any; the body is theirs then. -/
  pending : Option EfiString
  body : Json
  odataId : List UInt8
  etag : ℕ
  apply : ApplyAnswers
  updateGet : EfiStatus
  patch : PatchAnswers
  /-- What `SetEtagFromUri` gets. -/
  newEtag : Option ℕ

/-- What is left of a walk: the host, and an account on the side of which URI was set for which
language and which member's values went into which instance's questions.
Kind: D -/
structure Walk where
  host : Host
  adopted : List (EfiString × EfiString)
  consumed : List (EfiString × EfiString)

/-- `StrAsciiToUnicode`. Kind: D -/
def strAsciiToUnicode (s : List UInt8) : EfiString := s.map UInt8.toUInt16

/-- `RedfishSetRedfishUri`, entered in the account. Kind: D -/
def Walk.adopt (w : Walk) (lang uri : EfiString) : Walk :=
  { w with
    host := { w.host with map := w.host.map.set lang uri }
    adopted := w.adopted ++ [(lang, uri)] }

/-- Source: `EthernetInterfaceCommon.c` `RedfishIdentifyResourceCommon`
Kind: D -/
def redfishIdentifyResourceCommon (langs : List ConfigLang) (x : Member) (uri : EfiString)
    (w : Walk) : EfiStatus × Walk :=
  if !x.supported then (efiUnsupported, w)
  else match efiError x.unified, langs with
    | false, first :: _ =>
        (x.setRedfishUri.status,
          if efiError x.setRedfishUri.status then w else w.adopt first.configureLang uri)
    | _, _ => (efiUnsupported, w)

/-- Source: `EthernetInterfaceDxe.c` `RedfishResourceIdentify`
Kind: D -/
def redfishResourceIdentify (langs : List ConfigLang) (x : Member) (uri : EfiString) (w : Walk) :
    EfiStatus × Walk :=
  if efiError x.identifyGet then (x.identifyGet, w)
  else redfishIdentifyResourceCommon langs x uri w

/-- Source: `EthernetInterfaceDxe.c` `RedfishResourceCheck`
Kind: D -/
def redfishResourceCheck (x : Member) : EfiStatus :=
  if efiError x.checkGet then x.checkGet else checkResourceCommon x.checkBody

/-- The body converts, and its ETag is not the one stored. Kind: D -/
def Member.isNew (x : Member) (converter : Converter) (uri : EfiString)
    (etags : EfiString → Option ℕ) : Bool :=
  (converter.toStructure x.body).isOk && !checkEtag (etags (x.pending.getD uri)) x.etag

/-- The properties go to the language of the body's `@odata.id`; without one, `GetConfigureLang` is
`NULL` for each of them and nothing is applied.
Source: `EthernetInterfaceDxe.c` `RedfishResourceConsumeResource`
Kind: D -/
def redfishResourceConsumeResource (converter : Converter) (x : Member) (uri : EfiString)
    (w : Walk) : Walk :=
  if efiError x.consumeGet then w
  else match w.host.map.lang? (strAsciiToUnicode x.odataId) with
    | none => w
    | some lang =>
        let stored := w.host.etags (x.pending.getD uri)
        let cfg := (consumeResourceCommon converter x.apply stored x.body x.etag
          (w.host.questions lang)).2
        { w with
          host := { w.host with questions := Function.update w.host.questions lang cfg }
          consumed := w.consumed ++
            if x.isNew converter uri w.host.etags then [(lang, uri)] else [] }

/-- Source: `EthernetInterfaceDxe.c` `RedfishResourceUpdate`; `EthernetInterfaceCommon.c`
`RedfishUpdateResourceCommon`
Kind: D -/
def redfishResourceUpdate (x : Member) (uri : EfiString) (w : Host) : EfiStatus × Host :=
  if efiError x.updateGet then (x.updateGet, w)
  else
    let r := provisioningEthernetInterfaceExistResource uri x.patch w
    if efiError r.1 then r else (r.1, r.2.setEtag uri x.newEtag)

/-- The call that provisions a member that is there. Kind: D -/
def Member.provisioning (x : Member) (uri : EfiString) : ProvisioningCall where
  this := true
  uri := uri
  postMode := false
  service := true
  get := x.updateGet
  published := efiNotFound
  instances := []
  patch := x.patch
  etag := x.newEtag

/-- `HandleResource` from the check on. Kind: D -/
def handleIdentified (converter : Converter) (x : Member) (uri : EfiString) (w : Walk) :
    EfiStatus × Walk :=
  if efiError (redfishResourceCheck x) then
    let r := redfishResourceProvisioningResource (x.provisioning uri) w.host
    (r.1, { w with host := r.2 })
  else
    -- A failure to consume is logged; the update follows all the same.
    let v := redfishResourceConsumeResource converter x uri w
    let r := redfishResourceUpdate x uri v.host
    (r.1, { v with host := r.2 })

/-- The record of a known language cannot be passed on. Kind: D -/
def Member.recordFails (x : Member) : Bool :=
  (!efiError x.arrayIndex || x.arrayIndex == efiNotFound) && !x.listAllocated

/-- Source: `EthernetInterfaceCollectionDxe.c` `HandleResource`
Kind: D -/
def handleResource (converter : Converter) (langs : List ConfigLang) (x : Member)
    (uri : EfiString) (w : Walk) : EfiStatus × Walk :=
  if uri.isEmpty then (efiInvalidParameter, w)
  else if efiError x.schemaInfo then (x.schemaInfo, w)
  else match w.host.map.lang? uri with
    | none =>
        let r := redfishResourceIdentify langs x uri w
        if efiError r.1 then (if r.1 = efiUnsupported then efiSuccess else r.1, r.2)
        else handleIdentified converter x uri r.2
    | some _ =>
        if x.recordFails then (efiOutOfResources, w) else handleIdentified converter x uri w

/-- One round of the loop of `HandleCollectionResource`: the status is logged. Kind: D -/
def visit (converter : Converter) (langs : List ConfigLang) (w : Walk) (x : Member) : Walk :=
  match x.link with
  | none => w
  | some uri =>
      if x.unicode then (handleResource converter langs x (strAsciiToUnicode uri) w).2 else w

/-- `EFI_REDFISH_ETHERNETINTERFACECOLLECTION_CS`. Kind: D -/
structure CollectionCs where
  membersOdataCount : ℤ
  members : List Member

/-- Source: `EthernetInterfaceCollectionDxe.c` `HandleCollectionResource`
Kind: D -/
def handleCollectionResource (converter : Converter) (langs : List ConfigLang)
    (collection : Except EfiStatus CollectionCs) (w : Walk) : EfiStatus × Walk :=
  match collection with
  | .error status => (status, w)
  | .ok cs =>
      if cs.membersOdataCount = 0 || cs.members.isEmpty then (efiNotFound, w)
      else (efiSuccess, cs.members.foldl (visit converter langs) w)

/-- The members the loop gets to. Kind: D -/
def handledMembers : Except EfiStatus CollectionCs → List Member
  | .error _ => []
  | .ok cs => if cs.membersOdataCount = 0 then [] else cs.members

theorem handleCollectionResource_eq (converter : Converter) (langs : List ConfigLang)
    (collection : Except EfiStatus CollectionCs) (w : Walk) :
    (handleCollectionResource converter langs collection w).2 =
      (handledMembers collection).foldl (visit converter langs) w := by
  rcases collection with status | ⟨count, members⟩
  · rfl
  · by_cases hcount : count = 0
    · simp [handleCollectionResource, handledMembers, hcount]
    · rcases members with _ | ⟨x, xs⟩
      · simp [handleCollectionResource, handledMembers]
      · simp [handleCollectionResource, handledMembers, hcount]

/-! ### One member -/

/-- Nothing fails while the member is identified. Kind: D -/
def Member.identifies (x : Member) : Bool :=
  !efiError x.identifyGet && x.supported && !efiError x.unified &&
    !efiError x.setRedfishUri.status

/-- What the member is adopted as, if its URI is not in the map when it is reached. Kind: D -/
def Member.adoptable (langs : List ConfigLang) (x : Member) : Option (EfiString × EfiString) :=
  match langs, x.link with
  | first :: _, some uri =>
      if x.unicode && !(strAsciiToUnicode uri).isEmpty && !efiError x.schemaInfo &&
          x.identifies then
        some (first.configureLang, strAsciiToUnicode uri)
      else none
  | _, _ => none

lemma adoptable_eq_some {langs : List ConfigLang} {x : Member} {p : EfiString × EfiString} :
    x.adoptable langs = some p ↔ ∃ first ∈ langs.head?, ∃ uri, x.link = some uri ∧
      p = (first.configureLang, strAsciiToUnicode uri) ∧ x.unicode = true ∧
      (strAsciiToUnicode uri).isEmpty = false ∧ efiError x.schemaInfo = false ∧
      x.identifies = true := by
  unfold Member.adoptable
  rcases langs with _ | ⟨first, rest⟩
  · simp
  rcases x.link with _ | uri
  · simp
  simp only [Option.ite_none_right_eq_some, Bool.and_eq_true, Bool.not_eq_true', List.head?_cons,
    Option.mem_some_iff, exists_eq_left', Option.some.injEq]
  constructor
  · rintro ⟨⟨⟨⟨hunicode, hempty⟩, hschema⟩, hidentifies⟩, rfl⟩
    exact ⟨rfl, hunicode, hempty, hschema, hidentifies⟩
  · rintro ⟨rfl, hunicode, hempty, hschema, hidentifies⟩
    exact ⟨⟨⟨⟨hunicode, hempty⟩, hschema⟩, hidentifies⟩, rfl⟩

/-- All members are adopted for one language. Kind: L -/
theorem fst_eq_of_adoptable {langs : List ConfigLang} {x y : Member} {p q : EfiString × EfiString}
    (hp : x.adoptable langs = some p) (hq : y.adoptable langs = some q) : p.1 = q.1 := by
  obtain ⟨first, hfirst, _, -, rfl, -⟩ := adoptable_eq_some.mp hp
  obtain ⟨first', hfirst', _, -, rfl, -⟩ := adoptable_eq_some.mp hq
  rw [Option.mem_unique hfirst hfirst']

/-- A member is identified, and adopted for the first language, or the walk stays as it is.
Kind: L -/
theorem redfishResourceIdentify_cases (langs : List ConfigLang) (x : Member) (uri : EfiString)
    (w : Walk) :
    (∃ first ∈ langs.head?, x.identifies = true ∧
      redfishResourceIdentify langs x uri w =
        (efiSuccess, w.adopt first.configureLang uri)) ∨
    ((langs = [] ∨ x.identifies = false) ∧
      ∃ status, efiError status = true ∧
        redfishResourceIdentify langs x uri w = (status, w)) := by
  unfold redfishResourceIdentify redfishIdentifyResourceCommon Member.identifies
  rcases hget : efiError x.identifyGet with _ | _
  case true => exact Or.inr ⟨Or.inr (by simp), x.identifyGet, hget, by simp⟩
  rcases hsupported : x.supported with _ | _
  case false => exact Or.inr ⟨Or.inr (by simp), efiUnsupported, by decide, by simp⟩
  rcases hunified : efiError x.unified with _ | _
  case true => exact Or.inr ⟨Or.inr (by simp), efiUnsupported, by decide, by simp⟩
  rcases langs with _ | ⟨first, rest⟩
  case nil => exact Or.inr ⟨Or.inl rfl, efiUnsupported, by decide, by simp⟩
  rcases hset : efiError x.setRedfishUri.status with _ | _
  case true => exact Or.inr ⟨Or.inr (by simp), x.setRedfishUri.status, hset, by simp⟩
  exact Or.inl ⟨first, rfl, by simp, by simp [x.setRedfishUri.eq_success hset]⟩

lemma map_redfishResourceUpdate (x : Member) (uri : EfiString) (w : Host) :
    (redfishResourceUpdate x uri w).2.map = w.map := by
  have hexist := map_provisioningEthernetInterfaceExistResource uri x.patch w
  unfold redfishResourceUpdate
  split_ifs with hget
  · rfl
  · dsimp only
    split_ifs with herror
    · exact hexist
    · rw [map_setEtag, hexist]

lemma map_provisioning (x : Member) (uri : EfiString) (w : Host) :
    (redfishResourceProvisioningResource (x.provisioning uri) w).2.map = w.map := by
  obtain ⟨status, hrefused⟩ | ⟨r, hr, hcall⟩ :=
    redfishResourceProvisioningResource_cases (x.provisioning uri) w
  · rw [hrefused]
  · have hexist := map_provisioningEthernetInterfaceExistResource uri x.patch w
    rw [show redfishProvisioningResourceCommon (x.provisioning uri)
      (!(x.provisioning uri).postMode) w =
        provisioningEthernetInterfaceExistResource uri x.patch w from rfl] at hr
    rw [hcall]
    split_ifs with herror
    · rw [← hr, hexist]
    · rw [map_setEtag, ← hr, hexist]

/-- What the member's values go into, if the member is the current one. Kind: D -/
def Member.consumption (converter : Converter) (x : Member) (uri : EfiString) (w : Walk) :
    List (EfiString × EfiString) :=
  if efiError (redfishResourceCheck x) || efiError x.consumeGet then []
  else match w.host.map.lang? (strAsciiToUnicode x.odataId) with
    | none => []
    | some lang => if x.isNew converter uri w.host.etags then [(lang, uri)] else []

/-- The values of the member at `uri` go into the questions of the instance with language `lang`.
Kind: D -/
structure Member.GoesInto (converter : Converter) (x : Member) (uri : EfiString) (w : Walk)
    (lang : EfiString) : Prop where
  check : efiError (redfishResourceCheck x) = false
  get : efiError x.consumeGet = false
  lang : w.host.map.lang? (strAsciiToUnicode x.odataId) = some lang
  new : x.isNew converter uri w.host.etags = true

lemma mem_consumption {converter : Converter} {x : Member} {uri : EfiString} {w : Walk}
    {e : EfiString × EfiString} :
    e ∈ x.consumption converter uri w ↔ x.GoesInto converter uri w e.1 ∧ e.2 = uri := by
  unfold Member.consumption
  constructor
  · intro h
    rcases hcheck : efiError (redfishResourceCheck x) with _ | _
    case true => simp [hcheck] at h
    rcases hget : efiError x.consumeGet with _ | _
    case true => simp [hget] at h
    rcases hlang : w.host.map.lang? (strAsciiToUnicode x.odataId) with _ | lang
    case none => simp [hlang] at h
    rcases hnew : x.isNew converter uri w.host.etags with _ | _
    case false => simp [hnew, hlang] at h
    obtain rfl : e = (lang, uri) := by simpa [hcheck, hget, hlang, hnew] using h
    exact ⟨⟨hcheck, hget, hlang, hnew⟩, rfl⟩
  · rintro ⟨⟨hcheck, hget, hlang, hnew⟩, rfl⟩
    simp [hcheck, hget, hlang, hnew]

/-- From the check on, the map stays, nothing is adopted, and the member's values are consumed into
the questions its `@odata.id` has a language for.
Kind: L -/
theorem handleIdentified_spec (converter : Converter) (x : Member) (uri : EfiString) (w : Walk) :
    (handleIdentified converter x uri w).2.host.map = w.host.map ∧
    (handleIdentified converter x uri w).2.adopted = w.adopted ∧
    (handleIdentified converter x uri w).2.consumed =
      w.consumed ++ x.consumption converter uri w := by
  unfold handleIdentified Member.consumption
  rcases hcheck : efiError (redfishResourceCheck x) with _ | _
  case true => exact ⟨map_provisioning x uri w.host, rfl, (List.append_nil _).symm⟩
  unfold redfishResourceConsumeResource
  rcases hget : efiError x.consumeGet with _ | _
  case true => exact ⟨map_redfishResourceUpdate x uri w.host, rfl, (List.append_nil _).symm⟩
  rcases hlang : w.host.map.lang? (strAsciiToUnicode x.odataId) with _ | lang
  case none => exact ⟨map_redfishResourceUpdate x uri w.host, rfl, (List.append_nil _).symm⟩
  exact ⟨map_redfishResourceUpdate x uri _, rfl, rfl⟩

/-- What a round of the loop can do: adopt a member that is not in the map and go on with it, go on
with a member that is, or leave everything as it is.
Kind: L -/
theorem visit_cases (converter : Converter) (langs : List ConfigLang) (w : Walk) (x : Member) :
    (∃ p, x.adoptable langs = some p ∧ w.host.map.lang? p.2 = none ∧
      visit converter langs w x = (handleIdentified converter x p.2 (w.adopt p.1 p.2)).2) ∨
    (∃ uri, w.host.map.lang? uri ≠ none ∧ (∀ p, x.adoptable langs = some p → p.2 = uri) ∧
      visit converter langs w x = (handleIdentified converter x uri w).2) ∨
    ((∀ p, x.adoptable langs = some p →
        w.host.map.lang? p.2 ≠ none ∧ x.recordFails = true) ∧
      visit converter langs w x = w) := by
  unfold visit
  rcases hlink : x.link with _ | uri
  case none =>
    refine Or.inr (Or.inr ⟨?_, rfl⟩)
    intro p hp
    obtain ⟨_, _, _, hsome, -⟩ := adoptable_eq_some.mp hp
    exact absurd (hlink.symm.trans hsome) (by simp)
  -- Where the member has to be adoptable and is not, nothing happens.
  have hleft : (x.unicode = true → (strAsciiToUnicode uri).isEmpty = false →
      efiError x.schemaInfo = false → langs = [] ∨ x.identifies = false) →
      ∀ p, x.adoptable langs = some p → w.host.map.lang? p.2 ≠ none ∧ x.recordFails = true := by
    intro h p hp
    obtain ⟨first, hfirst, uri', huri', -, hunicode, hempty, hschema, hidentifies⟩ :=
      adoptable_eq_some.mp hp
    obtain rfl : uri = uri' := Option.some.inj (hlink.symm.trans huri')
    rcases h hunicode hempty hschema with rfl | hno
    · cases hfirst
    · exact absurd (hno.symm.trans hidentifies) Bool.false_ne_true
  have hsnd : ∀ p, x.adoptable langs = some p → p.2 = strAsciiToUnicode uri := by
    intro p hp
    obtain ⟨_, _, uri', huri', rfl, -⟩ := adoptable_eq_some.mp hp
    rw [Option.some.inj (hlink.symm.trans huri')]
  rcases hunicode : x.unicode with _ | _
  case false => exact Or.inr (Or.inr ⟨hleft fun h => absurd (hunicode.symm.trans h) (by simp), rfl⟩)
  dsimp only
  rw [if_pos rfl]
  unfold handleResource
  rcases hempty : (strAsciiToUnicode uri).isEmpty with _ | _
  case true => exact Or.inr (Or.inr ⟨hleft fun _ h => absurd (hempty.symm.trans h) (by simp), rfl⟩)
  rcases hschema : efiError x.schemaInfo with _ | _
  case true =>
    exact Or.inr (Or.inr ⟨hleft fun _ _ h => absurd (hschema.symm.trans h) (by simp), rfl⟩)
  rw [if_neg Bool.false_ne_true, if_neg Bool.false_ne_true]
  rcases hlang : w.host.map.lang? (strAsciiToUnicode uri) with _ | lang
  case none =>
    obtain ⟨first, hfirst, hidentifies, hrun⟩ | ⟨hno, status, herror, hrun⟩ :=
      redfishResourceIdentify_cases langs x (strAsciiToUnicode uri) w
    · refine Or.inl ⟨(first.configureLang, strAsciiToUnicode uri), ?_, hlang, ?_⟩
      · exact adoptable_eq_some.mpr
          ⟨first, hfirst, uri, hlink, rfl, hunicode, hempty, hschema, hidentifies⟩
      · simp [hrun]
    · refine Or.inr (Or.inr ⟨hleft fun _ _ _ => hno, ?_⟩)
      simp [hrun, herror]
  case some =>
    have hknown : w.host.map.lang? (strAsciiToUnicode uri) ≠ none := by simp [hlang]
    dsimp only
    rcases hrecord : x.recordFails with _ | _
    · refine Or.inr (Or.inl ⟨strAsciiToUnicode uri, hknown, hsnd, ?_⟩)
      rw [if_neg Bool.false_ne_true]
    · refine Or.inr (Or.inr ⟨?_, if_pos rfl ▸ rfl⟩)
      intro p hp
      rw [hsnd p hp]
      exact ⟨hknown, rfl⟩

/-! ### Repetitions in a row -/

section Destutter

variable {α : Type*} [DecidableEq α]

lemma destutter'_concat (b : α) : ∀ (l : List α) (a : α),
    (l ++ [b]).destutter' (· ≠ ·) a =
      if (a :: l).getLast? = some b then l.destutter' (· ≠ ·) a
      else l.destutter' (· ≠ ·) a ++ [b]
  | [], a => by by_cases h : a = b <;> simp [h]
  | c :: l, a => by
      rw [List.cons_append, List.destutter'_cons, List.destutter'_cons, destutter'_concat b l c,
        destutter'_concat b l a, List.getLast?_cons_cons]
      by_cases h : a = c
      · simp [h]
      · simp only [ne_eq, h, not_false_eq_true, if_true]
        split_ifs <;> rfl

/-- One more element is kept if it differs from the one before. Kind: L -/
theorem destutter_concat (l : List α) (b : α) :
    (l ++ [b]).destutter (· ≠ ·) =
      if l.getLast? = some b then l.destutter (· ≠ ·) else l.destutter (· ≠ ·) ++ [b] := by
  rcases l with _ | ⟨a, l⟩
  · simp
  · exact destutter'_concat b l a

/-- Of every element one is kept. Kind: L -/
theorem mem_destutter {l : List α} {a : α} : a ∈ l.destutter (· ≠ ·) ↔ a ∈ l := by
  refine ⟨fun h => (l.destutter_sublist (· ≠ ·)).subset h, ?_⟩
  induction l using List.reverseRecOn with
  | nil => exact id
  | append_singleton l b ih =>
      intro h
      rw [destutter_concat]
      split_ifs with hlast
      · rcases List.mem_append.mp h with h | h
        · exact ih h
        · obtain rfl := List.mem_singleton.mp h
          exact ih (List.mem_of_getLast? hlast)
      · rw [List.mem_append] at h ⊢
        exact h.imp_left ih

end Destutter

/-! ### The whole walk -/

section Run

variable {converter : Converter} {langs : List ConfigLang} {members : List Member} {w : Walk}

/-- What holds after the rounds for `members`: of the members that can be adopted, the last one is
in the map.
Kind: D -/
structure Walk.Sound (langs : List ConfigLang) (members : List Member) (w : Walk) : Prop where
  adopted : w.adopted = (members.filterMap (Member.adoptable langs)).destutter (· ≠ ·)
  map : w.host.map.entries = (members.filterMap (Member.adoptable langs)).getLast?.toList
  consumed : ∀ e ∈ w.consumed, ∃ first ∈ langs.head?, e.1 = first.configureLang

/-- A member that can be adopted and is in the map is the last that was adopted. Kind: L -/
theorem Walk.Sound.getLast?_of_known (h : w.Sound langs members) {x : Member}
    {p : EfiString × EfiString} (hp : x.adoptable langs = some p)
    (hknown : w.host.map.lang? p.2 ≠ none) :
    (members.filterMap (Member.adoptable langs)).getLast? = some p := by
  obtain ⟨lang, hlang⟩ := Option.ne_none_iff_exists'.mp hknown
  have hmem := ConfigLangMap.mem_of_lang?_eq_some hlang
  rw [h.map, Option.mem_toList] at hmem
  obtain ⟨y, -, hy⟩ := List.mem_filterMap.mp (List.mem_of_getLast? hmem)
  rw [hmem, Option.some.injEq]
  exact Prod.ext (fst_eq_of_adoptable hy hp) rfl

/-- The languages in the map are the first one. Kind: L -/
theorem Walk.Sound.lang?_first (h : w.Sound langs members) {uri lang : EfiString}
    (hlang : w.host.map.lang? uri = some lang) :
    ∃ first ∈ langs.head?, lang = first.configureLang := by
  have hmem := ConfigLangMap.mem_of_lang?_eq_some hlang
  rw [h.map, Option.mem_toList] at hmem
  obtain ⟨y, -, hy⟩ := List.mem_filterMap.mp (List.mem_of_getLast? hmem)
  obtain ⟨first, hfirst, _, -, hpair, -⟩ := adoptable_eq_some.mp hy
  exact ⟨first, hfirst, congrArg Prod.fst hpair⟩

/-- Going on with a member keeps what is known about the walk. Kind: L -/
theorem Walk.Sound.handleIdentified (h : w.Sound langs members) (x : Member) (uri : EfiString) :
    (handleIdentified converter x uri w).2.Sound langs members := by
  obtain ⟨hmap, hadopted, hconsumed⟩ := handleIdentified_spec converter x uri w
  refine ⟨hadopted.trans h.adopted, hmap ▸ h.map, ?_⟩
  intro e he
  rw [hconsumed, List.mem_append] at he
  rcases he with he | he
  · exact h.consumed e he
  · exact h.lang?_first (mem_consumption.mp he).1.lang

/-- A member that is not adopted in its round changes nothing. Kind: L -/
theorem Walk.Sound.skip (h : w.Sound langs members) {x : Member}
    (hknown : ∀ p, x.adoptable langs = some p → w.host.map.lang? p.2 ≠ none) :
    w.Sound langs (members ++ [x]) := by
  rcases hx : x.adoptable langs with _ | p
  · have hseen : (members ++ [x]).filterMap (Member.adoptable langs) =
        members.filterMap (Member.adoptable langs) := by simp [hx]
    exact ⟨hseen ▸ h.adopted, hseen ▸ h.map, h.consumed⟩
  · have hlast := h.getLast?_of_known hx (hknown p hx)
    have hseen : (members ++ [x]).filterMap (Member.adoptable langs) =
        members.filterMap (Member.adoptable langs) ++ [p] := by simp [hx]
    refine ⟨?_, ?_, h.consumed⟩
    · rw [hseen, destutter_concat, if_pos hlast, h.adopted]
    · rw [hseen, List.getLast?_concat, h.map, hlast]

/-- A member that is adopted takes the place of the one before it. Kind: L -/
theorem Walk.Sound.adopt (h : w.Sound langs members) {x : Member} {p : EfiString × EfiString}
    (hp : x.adoptable langs = some p) (hnew : w.host.map.lang? p.2 = none) :
    (w.adopt p.1 p.2).Sound langs (members ++ [x]) := by
  have hseen : (members ++ [x]).filterMap (Member.adoptable langs) =
      members.filterMap (Member.adoptable langs) ++ [p] := by simp [hp]
  refine ⟨?_, ?_, h.consumed⟩
  · have hlast : (members.filterMap (Member.adoptable langs)).getLast? ≠ some p := by
      intro hlast
      have hentries := h.map
      rw [hlast] at hentries
      simp [ConfigLangMap.lang?, hentries] at hnew
    rw [hseen, destutter_concat, if_neg hlast, ← h.adopted]
    rfl
  · rw [hseen, List.getLast?_concat, Option.toList_some]
    have hsame : ∀ e ∈ w.host.map.entries, ¬ decide (e.1 ≠ p.1) = true := by
      intro e he
      rw [h.map, Option.mem_toList] at he
      obtain ⟨y, -, hy⟩ := List.mem_filterMap.mp (List.mem_of_getLast? he)
      simp [fst_eq_of_adoptable hy hp]
    exact congrArg (p :: ·) (List.filter_eq_nil_iff.mpr hsame)

/-- One round. Kind: L -/
theorem Walk.Sound.visit (h : w.Sound langs members) (x : Member) :
    (visit converter langs w x).Sound langs (members ++ [x]) := by
  obtain ⟨p, hp, hnew, hrun⟩ | ⟨uri, hknown, hsnd, hrun⟩ | ⟨hknown, hrun⟩ :=
    visit_cases converter langs w x
  · rw [hrun]
    exact (h.adopt hp hnew).handleIdentified x p.2
  · rw [hrun]
    exact (h.skip fun p hp => hsnd p hp ▸ hknown).handleIdentified x uri
  · rw [hrun]
    exact h.skip fun p hp => (hknown p hp).1

/-- All rounds. Kind: P -/
theorem sound_walk (converter : Converter) (langs : List ConfigLang) {host : Host}
    (hmap : host.map = .empty) (members : List Member) :
    (members.foldl (visit converter langs) ⟨host, [], []⟩).Sound langs members := by
  induction members using List.reverseRecOn with
  | nil => exact ⟨rfl, by rw [List.foldl_nil, hmap]; rfl, List.forall_mem_nil _⟩
  | append_singleton members x ih =>
      rw [List.foldl_concat]
      exact ih.visit x

/-! ### What is consumed -/

/-- The member's body, its own one, is got and says something new. Kind: D -/
structure Member.Readable (converter : Converter) (x : Member) (uri : EfiString)
    (etags : EfiString → Option ℕ) : Prop where
  recorded : x.recordFails = false
  check : efiError (redfishResourceCheck x) = false
  get : efiError x.consumeGet = false
  own : strAsciiToUnicode x.odataId = uri
  new : x.isNew converter uri etags = true

lemma consumed_subset_visit (x : Member) : w.consumed ⊆ (visit converter langs w x).consumed := by
  obtain ⟨p, -, -, hrun⟩ | ⟨uri, -, -, hrun⟩ | ⟨-, hrun⟩ := visit_cases converter langs w x
  · rw [hrun, (handleIdentified_spec converter x p.2 (w.adopt p.1 p.2)).2.2]
    exact List.subset_append_left _ _
  · rw [hrun, (handleIdentified_spec converter x uri w).2.2]
    exact List.subset_append_left _ _
  · rw [hrun]
    exact List.Subset.refl _

lemma consumed_subset_walk (converter : Converter) (langs : List ConfigLang) :
    ∀ (members : List Member) (w : Walk),
      w.consumed ⊆ (members.foldl (visit converter langs) w).consumed
  | [], _ => List.Subset.refl _
  | x :: members, _ =>
      List.Subset.trans (consumed_subset_visit x) (consumed_subset_walk converter langs members _)

/-- A readable member goes into the questions of the language its URI is mapped to. Kind: L -/
theorem Member.Readable.mem_consumed {x : Member} {p : EfiString × EfiString}
    (h : x.Readable converter p.2 w.host.etags) (hlang : w.host.map.lang? p.2 = some p.1) :
    p ∈ (handleIdentified converter x p.2 w).2.consumed := by
  rw [(handleIdentified_spec converter x p.2 w).2.2]
  refine List.mem_append_right _ (mem_consumption.mpr ⟨⟨h.check, h.get, ?_, h.new⟩, rfl⟩)
  rw [h.own, hlang]

/-- A member that can be adopted is the current one when it is read, whether it was adopted in this
round or before.
Kind: L -/
theorem Walk.Sound.mem_consumed_visit (h : w.Sound langs members) {x : Member}
    {p : EfiString × EfiString} (hp : x.adoptable langs = some p)
    (hread : x.Readable converter p.2 w.host.etags) :
    p ∈ (Ethernet.visit converter langs w x).consumed := by
  obtain ⟨q, hq, -, hrun⟩ | ⟨uri, hknown, hsnd, hrun⟩ | ⟨hfails, -⟩ :=
    visit_cases converter langs w x
  · obtain rfl : q = p := Option.some.inj (hq.symm.trans hp)
    rw [hrun]
    exact Member.Readable.mem_consumed hread (ConfigLangMap.lang?_set_self _ _ _)
  · obtain rfl := hsnd p hp
    have hentries := h.map
    rw [h.getLast?_of_known hp hknown] at hentries
    rw [hrun]
    exact hread.mem_consumed (by simp [ConfigLangMap.lang?, hentries])
  · exact absurd ((hfails p hp).2.symm.trans hread.recorded) (by simp)

/-! ### The walk, in all -/

/-- What a walk over `members` comes to when the map is empty at its start. Kind: D -/
structure FirstInstanceOnly (converter : Converter) (langs : List ConfigLang)
    (members : List Member) (host : Host) (v : Walk) : Prop where
  /-- Every member that can be adopted is, unless it is the current one already. -/
  adopted : v.adopted = (members.filterMap (Member.adoptable langs)).destutter (· ≠ ·)
  first : ∀ e ∈ v.adopted ++ v.consumed, ∃ first ∈ langs.head?, e.1 = first.configureLang
  current : v.host.map.entries = (members.filterMap (Member.adoptable langs)).getLast?.toList
  /-- One URI for a language, exactly when there is only one to adopt. -/
  one_iff : (∀ e ∈ v.adopted, ∀ e' ∈ v.adopted, e.1 = e'.1 → e.2 = e'.2) ↔
    ∀ x ∈ members, ∀ y ∈ members, ∀ p ∈ x.adoptable langs, ∀ q ∈ y.adoptable langs, p.2 = q.2
  /-- Every member that can be adopted and read goes into the questions of the first instance. -/
  consumed : ∀ before x after p, members = before ++ x :: after → x.adoptable langs = some p →
    x.Readable converter p.2
      (before.foldl (Ethernet.visit converter langs) ⟨host, [], []⟩).host.etags →
    p ∈ v.consumed

end Run

/-- A member with nothing wrong with it. -/
def sampleMember (uri : String) (dhcpEnabled : Bool) : Member where
  link := some (ascii uri)
  unicode := true
  schemaInfo := efiSuccess
  identifyGet := efiSuccess
  supported := true
  unified := efiSuccess
  setRedfishUri := .success
  arrayIndex := efiSuccess
  listAllocated := true
  checkGet := efiSuccess
  checkBody := memberOf dhcpEnabled []
  consumeGet := efiSuccess
  pending := none
  body := memberOf dhcpEnabled []
  odataId := ascii uri
  etag := 1
  apply := answers efiSuccess
  updateGet := efiSuccess
  patch := ⟨⟨fun _ => true, none⟩, efiSuccess, efiSuccess⟩
  newEtag := some 2

def sampleLangs : List ConfigLang := [⟨1, ucs2 "\x7b1\x7d"⟩]

def sampleCollection : Except EfiStatus CollectionCs :=
  .ok ⟨2, [sampleMember "/eth0" true, sampleMember "/eth1" false]⟩

end NucBios.Ethernet
