import NucBios.Lib.Machine
import NucBios.Ethernet.Interface

/-!
# Two writers of one EthernetInterface

The operator writes the member on the BMC at any time, or the resource its `@Redfish.Settings`
points to. The host, at every boot, takes the member through one pass of `HandleResource`: check,
consume, update, store the ETag — requests of two drivers, with nothing that ties them together but
the ETags of the last pass. `sync` is the machine of both. Its events are the operator's writes and
the requests of the host, which may fail in every way the code knows, in any order in which they can
follow each other:

* `check`: the GET of `RedfishResourceCheck`;
* `getMember` and `consume`: the GET of `RedfishResourceConsumeResource`, then that of
  `GetPendingSettings` and what is done with the response expected;
* `get`, `patch`, `store`, `storeSettings`: the requests of `RedfishResourceUpdate`, or of
  `RedfishResourceProvisioningResource`; `SetEtagFromUri` looks for pending settings as well;
* `lookup`: any other GET of the host, such as that of `RedfishResourceIdentify`.

Every GET is made with `UseCache`, so it may be answered with a response that an earlier GET of the
boot got, however old that is by now.

A write needs an account: what became of it? `write_accounted` gives one for every write in every
run. It was applied to the questions in some pass, or superseded by a later write, or it is still
on the BMC under an ETag that the next pass will notice, or a pass ran over it that had not
consumed it, for one of the reasons listed in `Defect`. All five reasons occur (`writes_lost`),
because the update PATCH is sent whatever the consume step came to and is not conditional on what
that step read. What the C structure has no way to say (`Expressible`) is left out.

Each resource on the BMC is a value and an ETag, a counter that moves on at every write. How the BMC
merges a PATCH is left open (`merge`).
-/

namespace NucBios.Ethernet

open Lib Uefi

/-! ### One pass of the host -/

/-- The resources that can be consumed: the member, and the one that holds its pending settings.
Kind: D -/
inductive Place where
  | member
  | settings
  deriving DecidableEq

/-- The response to a GET: the body, and the ETag of the header. Kind: D -/
structure Reply where
  body : Json
  etag : ℕ

/-- What the steps before the update came to. Kind: D -/
inductive Consumed where
  /-- The check failed or found no marker: the member is provisioned without being consumed. -/
  | unchecked
  /-- The member could not be got, or the response expected could not be converted. -/
  | unread
  /-- The ETag got from there was the one stored. -/
  | skipped (place : Place) (etag : ℕ)
  /-- The settings were applied, all of them if `clean`. -/
  | settled (place : Place) (etag : ℕ) (clean : Bool)
  deriving DecidableEq

/-- What the host does next. Kind: D -/
inductive Phase where
  | idle
  | check
  | getMember
  | consume (got : Reply)
  | get (c : Consumed)
  | patch (c : Consumed)
  | store (c : Consumed)
  | storeSettings (c : Consumed)

/-- Why a pass may run over a write it has not applied. Kind: D -/
inductive Defect where
  /-- The pass did not consume: its check failed or found no `DHCPv4` marker. -/
  | unchecked
  /-- The GET or the conversion of the consume step failed. -/
  | unread
  /-- The other one of the two resources was consumed. -/
  | elsewhere
  /-- The write landed after the GET, of this step or an earlier one, whose response was
  consumed. -/
  | late
  /-- A question did not take its value. -/
  | unapplied
  deriving DecidableEq

/-- A write of the operator and what became of it. The last two fields are an account kept on the
side: no step depends on them.
Kind: D -/
structure Write where
  value : Json
  etag : ℕ
  applied : Bool
  lost : Option Defect

/-- What a response from `q` under `etag` does not have of a write to `p`. Kind: D -/
def missed (q : Place) (etag : ℕ) (p : Place) (x : Write) : Option Defect :=
  if q ≠ p then some .elsewhere else if etag ≠ x.etag then some .late else none

/-- What is wrong with a pass, from the point of view of a write to `p` it runs over. Kind: D -/
def Consumed.defect (c : Consumed) (p : Place) (x : Write) : Option Defect :=
  match c with
  | unchecked => some .unchecked
  | unread => some .unread
  | skipped q etag => missed q etag p x
  | settled q etag clean => (missed q etag p x).or (if clean then none else some .unapplied)

/-- A resource of the BMC with its ETag, what the host keeps about it (the ETag in a variable, a
response in the cache), and the writes of the operator so far, the latest first.
Kind: D -/
structure Resource where
  value : Json
  etag : ℕ
  stored : Option ℕ
  cached : Option Reply
  writes : List Write

/-- The resources, the questions, and the host's phase. Kind: D -/
structure World where
  resource : Place → Resource
  cfg : EthCfg
  phase : Phase

/-! ### The steps -/

/-- What becomes of a GET: its status, and whether it is answered out of the cache. Kind: D -/
structure GetAnswer where
  status : EfiStatus
  hit : Bool

/-- What becomes of the PATCH. A PATCH can take effect and be reported as failed. Kind: D -/
inductive PatchOutcome where
  /-- No configure language is known for the member, or no payload can be built. -/
  | notSent
  | lost
  | taken (response : EfiStatus)

inductive SyncEvent where
  /-- The operator writes; `value` is the resource afterwards. -/
  | write (place : Place) (value : Json)
  | lookup (place : Place) (answer : GetAnswer)
  /-- A pass begins: the schema is known and the member is ours. -/
  | handleResource
  | check (answer : GetAnswer)
  | getMember (answer : GetAnswer)
  /-- `settings` fails where there is no `@Redfish.Settings`. -/
  | consume (settings : GetAnswer) (a : ApplyAnswers)
  | get (answer : GetAnswer)
  | patch (r : PropertyReads) (outcome : PatchOutcome)
  | store (response : EfiStatus)
  | storeSettings (response : EfiStatus)
  /-- The host goes down. -/
  | reset

/-- Source: `EthernetInterfaceCommon.c` `RedfishCheckResourceCommon`
Kind: D -/
def checkResourceCommon (member : Json) : EfiStatus :=
  if (member.field (ascii "DHCPv4")).isSome then efiSuccess else efiNotFound

def Resource.current (r : Resource) : Reply := ⟨r.value, r.etag⟩

/-- The response a GET with `UseCache` gives. Kind: D -/
def Resource.reply (r : Resource) (hit : Bool) : Reply :=
  (if hit then r.cached else none).getD r.current

/-- The response is kept. Kind: D -/
def Resource.get (r : Resource) (a : GetAnswer) : Resource :=
  if efiError a.status then r else { r with cached := some (r.reply a.hit) }

/-- The operator's write. Kind: D -/
def Resource.write (r : Resource) (value : Json) : Resource :=
  { r with
    value := value
    etag := r.etag + 1
    writes := ⟨value, r.etag + 1, false, none⟩ :: r.writes }

/-- The write has been applied when the pass read it and the questions say what it says. Kind: D -/
def Write.note (c : Consumed) (cfg : EthCfg) (x : Write) : Write :=
  match c with
  | .settled _ etag _ =>
      if etag = x.etag ∧ Reflects x.value cfg then { x with applied := true } else x
  | _ => x

def Resource.note (r : Resource) (c : Consumed) (cfg : EthCfg) : Resource :=
  { r with writes := r.writes.map (Write.note c cfg) }

/-- The pass runs over a write to `p` that is on the BMC and has not been applied. Kind: D -/
def Write.overrun (c : Consumed) (p : Place) (etag : ℕ) (x : Write) : Write :=
  if x.etag = etag ∧ x.applied = false then { x with lost := x.lost.or (c.defect p x) } else x

/-- The BMC takes a PATCH. Kind: D -/
def Resource.patch (r : Resource) (p : Place) (value : Json) (c : Consumed) : Resource :=
  { r with
    value := value
    etag := r.etag + 1
    writes := r.writes.map (Write.overrun c p r.etag) }

/-- `SetEtagFromUri`: the ETag the resource has by now. Kind: D -/
def Resource.storeEtag (r : Resource) (p : Place) (c : Consumed) : Resource :=
  { r with
    stored := some r.etag
    writes := r.writes.map (Write.overrun c p r.etag) }

def Resource.forget (r : Resource) : Resource := { r with cached := none }

def World.modify (w : World) (p : Place) (f : Resource → Resource) : World :=
  { w with resource := Function.update w.resource p (f (w.resource p)) }

def World.get (w : World) (p : Place) (a : GetAnswer) : World := w.modify p fun r => r.get a

def World.withPhase (w : World) (phase : Phase) : World := { w with phase := phase }

/-- Source: `EthernetInterfaceCollectionDxe.c` `HandleResource`; `EthernetInterfaceDxe.c`
`RedfishResourceCheck`
Kind: D -/
def World.check (w : World) (a : GetAnswer) : World :=
  let got := (w.resource .member).reply a.hit
  let failed := efiError a.status || efiError (checkResourceCommon got.body)
  (w.get .member a).withPhase (if failed then .get .unchecked else .getMember)

/-- Source: `EthernetInterfaceDxe.c` `RedfishResourceConsumeResource`, its first GET
Kind: D -/
def World.getMember (w : World) (a : GetAnswer) : World :=
  (w.get .member a).withPhase
    (if efiError a.status then .get .unread else .consume ((w.resource .member).reply a.hit))

/-- `ExpectedResponse`, and where it is from: the pending settings if they can be got.
Source: `EthernetInterfaceDxe.c` `RedfishResourceConsumeResource`, the call of `GetPendingSettings`
Kind: D -/
def World.expected (w : World) (got : Reply) (settings : GetAnswer) : Place × Reply :=
  if efiError settings.status then (.member, got)
  else (.settings, (w.resource .settings).reply settings.hit)

/-- What the consume step comes to, on a response from `p`. Kind: D -/
def consumed (converter : Converter) (a : ApplyAnswers) (p : Place) (stored : Option ℕ)
    (reply : Reply) : Consumed :=
  match converter.toStructure reply.body with
  | .error _ => .unread
  | .ok _ =>
      if checkEtag stored reply.etag then .skipped p reply.etag else .settled p reply.etag a.clean

/-- A response from `p` is consumed. Whatever that comes to, the update is next.
Source: `EthernetInterfaceCommon.c` `RedfishConsumeResourceCommon`
Kind: D -/
def World.settle (w : World) (converter : Converter) (a : ApplyAnswers) (p : Place)
    (reply : Reply) : World :=
  -- `CheckEtag` looks the stored ETag up under the URI the response is from
  let stored := (w.resource p).stored
  let cfg := (consumeResourceCommon converter a stored reply.body reply.etag w.cfg).2
  let c := consumed converter a p stored reply
  { w.modify p fun r => r.note c cfg with cfg := cfg, phase := .get c }

/-- Source: `EthernetInterfaceCollectionDxe.c` `HandleResource`; `EthernetInterfaceDxe.c`
`RedfishResourceConsumeResource`, behind its first GET
Kind: D -/
def World.consume (w : World) (converter : Converter) (got : Reply) (settings : GetAnswer)
    (a : ApplyAnswers) : World :=
  let expected := w.expected got settings
  (w.get .settings settings).settle converter a expected.1 expected.2

/-- The PATCH goes to the member, wherever the settings were consumed from.
Source: `EthernetInterfaceCommon.c` `ProvisioningEthernetInterfaceExistResource`, and what its
callers in `EthernetInterfaceDxe.c` do with the status
Kind: D -/
def World.patch (w : World) (merge : Json → Json → Json) (r : PropertyReads)
    (outcome : PatchOutcome) (c : Consumed) : World :=
  match outcome with
  | .notSent | .lost => w.withPhase .idle
  | .taken response =>
      let value := merge (w.resource .member).value (buildEthernetInterfacePayload r none w.cfg)
      (w.modify .member fun m => m.patch .member value c).withPhase
        (if efiError response then .idle else .store c)

/-- The ETag of the member, and behind it that of its pending settings, if there are any. Kind: D -/
def World.storeEtag (w : World) (p : Place) (response : EfiStatus) (c : Consumed) (next : Phase) :
    World :=
  if efiError response then w.withPhase .idle
  else (w.modify p fun r => r.storeEtag p c).withPhase next

/-- Operator and host, in any order. Kind: D -/
def sync (converter : Converter) (merge : Json → Json → Json) : Machine World SyncEvent where
  step w e :=
    match e, w.phase with
    | .write p value, _ => some (w.modify p fun r => r.write value)
    | .lookup p a, _ => some (w.get p a)
    | .handleResource, .idle => some (w.withPhase .check)
    | .check a, .check => some (w.check a)
    | .getMember a, .getMember => some (w.getMember a)
    | .consume settings a, .consume got => some (w.consume converter got settings a)
    | .get a, .get c =>
        some ((w.get .member a).withPhase (if efiError a.status then .idle else .patch c))
    | .patch r outcome, .patch c => some (w.patch merge r outcome c)
    | .store response, .store c => some (w.storeEtag .member response c (.storeSettings c))
    | .storeSettings response, .storeSettings c => some (w.storeEtag .settings response c .idle)
    | .reset, _ =>
        -- what is in variables survives, the cache does not
        some { w with resource := fun p => (w.resource p).forget, phase := .idle }
    | _, _ => none

/-! ### The account of the latest write -/

/-- Applied, or waiting to be noticed, or run over by a pass that had not consumed it. Kind: D -/
def Resource.Accounted (r : Resource) (x : Write) : Prop :=
  Expressible x.value →
    x.applied = true ∨ (r.etag = x.etag ∧ r.stored ≠ some x.etag) ∨ x.lost ≠ none

/-- A response that was once true: not of the future, and under the ETag of the latest write it has
what was written.
Kind: D -/
def Reply.Fits (reply : Reply) (r : Resource) : Prop :=
  reply.etag ≤ r.etag ∧ ∀ x ∈ r.writes.head?, x.etag = reply.etag → reply.body = x.value

/-- The ETag under which a pass consumed, or skipped, `p`. Kind: D -/
def Consumed.etag? (c : Consumed) (p : Place) : Option ℕ :=
  match c with
  | unchecked | unread => none
  | skipped q etag | settled q etag _ => if q = p then some etag else none

/-- What the record of a pass is worth until the pass is over: it is not of the future, and has a
fault for every write that nobody has applied, noticed or run over yet.
Kind: D -/
def Consumed.Fits (c : Consumed) (p : Place) (r : Resource) : Prop :=
  (∀ etag ∈ c.etag? p, etag ≤ r.etag) ∧
    ∀ x ∈ r.writes.head?, Expressible x.value → x.applied = false → x.lost = none →
      r.stored ≠ some x.etag → c.defect p x ≠ none

/-- What a pass carries with it until the consume step is done, and from then on. Kind: D -/
def Phase.got : Phase → Option Reply
  | consume got => some got
  | idle | check | getMember | get _ | patch _ | store _ | storeSettings _ => none

def Phase.record : Phase → Option Consumed
  | idle | check | getMember | consume _ => none
  | get c | patch c | store c | storeSettings c => some c

/-- The invariant of one resource. Kind: D -/
structure Resource.Sound (r : Resource) : Prop where
  stored_le : ∀ etag ∈ r.stored, etag ≤ r.etag
  current : r.current.Fits r
  cached : ∀ reply ∈ r.cached, reply.Fits r
  write_le : ∀ x ∈ r.writes.head?, x.etag ≤ r.etag
  accounted : ∀ x ∈ r.writes.head?, r.Accounted x

/-- The invariant of `sync`. Kind: D -/
structure World.Sound (w : World) : Prop where
  resource : ∀ p, (w.resource p).Sound
  got : ∀ reply ∈ w.phase.got, reply.Fits (w.resource .member)
  record : ∀ c ∈ w.phase.record, ∀ p, c.Fits p (w.resource p)

/-! ### What the steps do to a resource -/

lemma mem_head?_map {α β : Type*} {f : α → β} {l : List α} {y : β} :
    y ∈ (l.map f).head? ↔ ∃ x ∈ l.head?, f x = y := by
  cases l <;> simp

section Writes

variable (c : Consumed) (p : Place) (etag : ℕ) (cfg : EthCfg) (x : Write)

@[simp] theorem etag_overrun : (x.overrun c p etag).etag = x.etag := by
  unfold Write.overrun
  split_ifs <;> rfl

@[simp] theorem value_overrun : (x.overrun c p etag).value = x.value := by
  unfold Write.overrun
  split_ifs <;> rfl

@[simp] theorem etag_note : (x.note c cfg).etag = x.etag := by
  unfold Write.note
  cases c with
  | settled => dsimp only; split_ifs <;> rfl
  | unchecked | unread | skipped => rfl

@[simp] theorem value_note : (x.note c cfg).value = x.value := by
  unfold Write.note
  cases c with
  | settled => dsimp only; split_ifs <;> rfl
  | unchecked | unread | skipped => rfl

/-- A note only ever adds that the write has been applied. Kind: L -/
theorem note_cases : x.note c cfg = { x with applied := true } ∨ x.note c cfg = x := by
  unfold Write.note
  cases c with
  | settled =>
      dsimp only
      split_ifs
      · exact .inl rfl
      · exact .inr rfl
  | unchecked | unread | skipped => exact .inr rfl

end Writes

/-- A step that moves the ETag on, or not, and keeps the latest write apart from its account keeps
every response. Kind: L -/
theorem Reply.Fits.of_map {reply : Reply} {r r' : Resource} {f : Write → Write}
    (h : reply.Fits r) (hetag : r.etag ≤ r'.etag) (hwrites : r'.writes = r.writes.map f)
    (hf : ∀ x, (f x).etag = x.etag ∧ (f x).value = x.value) : reply.Fits r' := by
  refine ⟨h.1.trans hetag, fun y hy hy' => ?_⟩
  rw [hwrites] at hy
  obtain ⟨x, hx, rfl⟩ := mem_head?_map.mp hy
  rw [(hf x).2]
  exact h.2 x hx ((hf x).1.symm.trans hy')

lemma Reply.Fits.of_overrun {reply : Reply} {r r' : Resource} {c : Consumed} {p : Place}
    (h : reply.Fits r) (hetag : r.etag ≤ r'.etag)
    (hwrites : r'.writes = r.writes.map (Write.overrun c p r.etag)) : reply.Fits r' :=
  h.of_map hetag hwrites fun _ => ⟨etag_overrun .., value_overrun ..⟩

section Steps

variable {r : Resource}

/-- A new write is younger than everything anybody has read. Kind: L -/
theorem fits_write {reply : Reply} (hreply : reply.Fits r) (value : Json) :
    reply.Fits (r.write value) := by
  refine ⟨hreply.1.trans (Nat.le_succ _), ?_⟩
  rintro x ⟨⟩ hetag
  exact absurd (hetag.trans_le hreply.1) (Nat.not_succ_le_self _)

lemma record_write {c : Consumed} {p : Place} (hc : c.Fits p r) (value : Json) :
    c.Fits p (r.write value) := by
  refine ⟨fun etag hetag => (hc.1 etag hetag).trans (Nat.le_succ _), ?_⟩
  rintro x ⟨⟩ - - - -
  have hmissed (q : Place) (etag : ℕ) (hle : q = p → etag ≤ r.etag) :
      missed q etag p ⟨value, r.etag + 1, false, none⟩ ≠ none := by
    unfold missed
    split_ifs with hplace hetag
    · exact Option.some_ne_none _
    · exact Option.some_ne_none _
    · have hle' := hle (not_not.mp hplace)
      have heq : etag = r.etag + 1 := not_not.mp hetag
      omega
  cases c with
  | unchecked | unread => exact Option.some_ne_none _
  | skipped q etag => exact hmissed q etag fun hq => hc.1 etag (if_pos hq)
  | settled q etag clean =>
      obtain ⟨d, hd⟩ := Option.ne_none_iff_exists'.mp
        (hmissed q etag fun hq => hc.1 etag (if_pos hq))
      rw [Consumed.defect, hd]
      exact Option.some_ne_none d

variable (h : r.Sound)
include h

lemma fits_reply (hit : Bool) : (r.reply hit).Fits r := by
  unfold Resource.reply
  rcases hcached : (if hit then r.cached else none) with _ | reply
  · exact h.current
  · cases hit with
    | true => exact h.cached reply hcached
    | false => cases hcached

lemma sound_get (a : GetAnswer) : (r.get a).Sound := by
  unfold Resource.get
  split_ifs
  · exact h
  · refine ⟨h.stored_le, h.current, ?_, h.write_le, h.accounted⟩
    rintro reply ⟨⟩
    exact fits_reply h a.hit

lemma sound_forget : r.forget.Sound :=
  ⟨h.stored_le, h.current, (fun _ hreply => nomatch hreply), h.write_le, h.accounted⟩

lemma sound_write (value : Json) : (r.write value).Sound where
  stored_le := fun etag hetag => (h.stored_le etag hetag).trans (Nat.le_succ _)
  current := by
    refine ⟨Nat.le_refl _, ?_⟩
    rintro x ⟨⟩ -
    rfl
  cached := fun reply hreply => fits_write (h.cached reply hreply) value
  write_le := by
    rintro x ⟨⟩
    exact Nat.le_refl _
  accounted := by
    rintro x ⟨⟩ -
    refine .inr (.inl ⟨rfl, ?_⟩)
    intro hstored
    exact absurd (h.stored_le _ hstored) (Nat.not_succ_le_self _)

/-- A note on the writes changes nothing else. Kind: L -/
theorem sound_note (c : Consumed) (cfg : EthCfg) : (r.note c cfg).Sound where
  stored_le := h.stored_le
  current := h.current.of_map (Nat.le_refl _) rfl fun _ => ⟨etag_note .., value_note ..⟩
  cached := fun reply hreply =>
    (h.cached reply hreply).of_map (Nat.le_refl _) rfl fun _ => ⟨etag_note .., value_note ..⟩
  write_le := by
    intro x hx
    obtain ⟨y, hy, rfl⟩ := mem_head?_map.mp hx
    rw [etag_note]
    exact h.write_le y hy
  accounted := by
    intro x hx hexpr
    obtain ⟨y, hy, rfl⟩ := mem_head?_map.mp hx
    rcases note_cases c cfg y with hnote | hnote
    · rw [hnote]
      exact .inl rfl
    · rw [hnote] at hexpr ⊢
      exact h.accounted y hy hexpr

/-- Once a pass with a fitting record has run over the latest write, that is applied or lost: it
was so before, or it was waiting, and then the record has a fault for it.
Kind: L -/
theorem accounted_overrun {c : Consumed} {p : Place} {x : Write} (hc : c.Fits p r)
    (hx : x ∈ r.writes.head?) (hexpr : Expressible x.value) :
    (x.overrun c p r.etag).applied = true ∨ (x.overrun c p r.etag).lost ≠ none := by
  rcases happlied : x.applied with _ | _
  · right
    rcases hlost : x.lost with _ | d
    · rcases h.accounted x hx hexpr with h' | ⟨hetag, hstored⟩ | h'
      · rw [happlied] at h'
        cases h'
      · rw [Write.overrun, if_pos ⟨hetag.symm, happlied⟩, hlost, Option.none_or]
        exact hc.2 x hx hexpr happlied hlost hstored
      · exact absurd hlost h'
    · unfold Write.overrun
      split_ifs
      · rw [hlost]
        exact Option.some_ne_none d
      · rw [hlost]
        exact Option.some_ne_none d
  · left
    rw [Write.overrun, if_neg (by simp [happlied]), happlied]

section Overrun

-- a step that runs over the writes
variable {r' : Resource} {c : Consumed} {p : Place} (hc : c.Fits p r)
  (hwrites : r'.writes = r.writes.map (Write.overrun c p r.etag))
include hc hwrites

lemma accounted_of_overrun {x : Write} (hx : x ∈ r'.writes.head?) (hexpr : Expressible x.value) :
    x.applied = true ∨ x.lost ≠ none := by
  rw [hwrites] at hx
  obtain ⟨y, hy, rfl⟩ := mem_head?_map.mp hx
  rw [value_overrun] at hexpr
  exact accounted_overrun h hc hy hexpr

-- and may move the ETag on, or store it
variable (hetag : r.etag ≤ r'.etag)
include hetag

lemma sound_overrun (hstored : ∀ etag ∈ r'.stored, etag ≤ r'.etag) (hcurrent : r'.current.Fits r')
    (hcached : r'.cached = r.cached) : r'.Sound where
  stored_le := hstored
  current := hcurrent
  cached := by
    rw [hcached]
    exact fun reply hreply => (h.cached reply hreply).of_overrun hetag hwrites
  write_le := by
    intro x hx
    rw [hwrites] at hx
    obtain ⟨y, hy, rfl⟩ := mem_head?_map.mp hx
    rw [etag_overrun]
    exact (h.write_le y hy).trans hetag
  accounted := fun _ hx hexpr => (accounted_of_overrun h hc hwrites hx hexpr).imp_right .inr

lemma record_overrun : c.Fits p r' := by
  refine ⟨fun etag hetag' => (hc.1 etag hetag').trans hetag, ?_⟩
  intro x hx hexpr happlied hlost
  rcases accounted_of_overrun h hc hwrites hx hexpr with h' | h'
  · rw [happlied] at h'
    cases h'
  · exact absurd hlost h'

end Overrun

lemma sound_patch {c : Consumed} {p : Place} (hc : c.Fits p r) (value : Json) :
    (r.patch p value c).Sound := by
  refine sound_overrun h hc rfl (Nat.le_succ _) ?_ ?_ rfl
  · exact fun etag hetag => (h.stored_le etag hetag).trans (Nat.le_succ _)
  · refine ⟨Nat.le_refl _, fun x hx hetag => ?_⟩
    obtain ⟨y, hy, rfl⟩ := mem_head?_map.mp hx
    rw [etag_overrun] at hetag
    exact absurd (hetag ▸ h.write_le y hy) (Nat.not_succ_le_self _)

lemma sound_storeEtag {c : Consumed} {p : Place} (hc : c.Fits p r) :
    (r.storeEtag p c).Sound := by
  refine sound_overrun h hc rfl (Nat.le_refl _) ?_ ?_ rfl
  · rintro etag ⟨⟩
    exact Nat.le_refl _
  · have hfits : r.current.Fits (r.storeEtag p c) := h.current.of_overrun (Nat.le_refl _) rfl
    exact hfits

end Steps

/-! ### Every step keeps it -/

variable {w : World}

lemma World.Sound.withPhase (h : w.Sound) {phase : Phase}
    (hgot : ∀ reply ∈ phase.got, reply.Fits (w.resource .member))
    (hrecord : ∀ c ∈ phase.record, ∀ p, c.Fits p (w.resource p)) : (w.withPhase phase).Sound :=
  ⟨h.resource, hgot, hrecord⟩

/-- The pass goes on with the record it has, or ends. Kind: L -/
theorem World.Sound.goOn (h : w.Sound) {next : Phase} (hgot : next.got = none)
    (hrecord : ∀ c ∈ next.record, w.phase.record = some c) : (w.withPhase next).Sound :=
  h.withPhase (by rw [hgot]; exact fun _ h => nomatch h) fun c hc => h.record c (hrecord c hc)

lemma World.Sound.withIdle (h : w.Sound) : (w.withPhase .idle).Sound :=
  h.goOn rfl fun _ hc => nomatch hc

/-- A change of one resource that keeps what is known about it. Kind: L -/
theorem World.Sound.modify (h : w.Sound) {p : Place} {f : Resource → Resource}
    (hsound : (f (w.resource p)).Sound)
    (hgot : ∀ reply : Reply, reply.Fits (w.resource p) → reply.Fits (f (w.resource p)))
    (hrecord : ∀ c ∈ w.phase.record, c.Fits p (w.resource p) → c.Fits p (f (w.resource p))) :
    (w.modify p f).Sound where
  resource := (Function.forall_update_iff w.resource fun _ r => Resource.Sound r).mpr
    ⟨hsound, fun q _ => h.resource q⟩
  got := by
    intro reply hreply
    have hfits := h.got reply hreply
    cases p with
    | member => exact hgot reply hfits
    | settings => exact hfits
  record := fun c hc => (Function.forall_update_iff w.resource fun q r => c.Fits q r).mpr
    ⟨hrecord c hc (h.record c hc p), fun q _ => h.record c hc q⟩

lemma World.Sound.get (h : w.Sound) (p : Place) (a : GetAnswer) : (w.get p a).Sound := by
  have hkeeps : (w.resource p).get a = w.resource p ∨
      ∃ reply, (w.resource p).get a = { w.resource p with cached := some reply } := by
    unfold Resource.get
    split_ifs
    · exact .inl rfl
    · exact .inr ⟨_, rfl⟩
  refine h.modify (sound_get (h.resource p) a) (fun reply hreply => ?_) fun c _ hc => ?_
  · rcases hkeeps with he | ⟨_, he⟩
    · rwa [he]
    · rw [he]
      exact hreply
  · rcases hkeeps with he | ⟨_, he⟩
    · rwa [he]
    · rw [he]
      exact hc

/-- The consume step leaves a record that fits: if the response was that of the latest write and all
questions took their values, they say what the write says.
Kind: L -/
theorem fits_consumed (converter : Converter) (a : ApplyAnswers) (cfg : EthCfg) {p : Place}
    {r : Resource} {reply : Reply} (hreply : reply.Fits r) :
    let c := consumed converter a p r.stored reply
    let cfg' := (consumeResourceCommon converter a r.stored reply.body reply.etag cfg).2
    c.Fits p (r.note c cfg') := by
  intro c cfg'
  have hread : ∀ etag ∈ if p = p then some reply.etag else none, etag ≤ r.etag := by
    intro etag hetag
    rw [if_pos rfl] at hetag
    exact Option.some.inj hetag ▸ hreply.1
  rcases hcs : converter.toStructure reply.body with status | cs
  · have hc : c = .unread := by simp [c, consumed, hcs]
    rw [hc]
    exact ⟨(fun _ h => nomatch h), fun _ _ _ _ _ _ => Option.some_ne_none _⟩
  rcases hetag : checkEtag r.stored reply.etag with _ | _
  · have hc : c = .settled p reply.etag a.clean := by simp [c, consumed, hcs, hetag]
    rw [hc]
    refine ⟨hread, fun y hy hexpr happlied _ _ => ?_⟩
    obtain ⟨x, hx, rfl⟩ := mem_head?_map.mp hy
    by_cases hx' : reply.etag = x.etag
    · rcases hclean : a.clean with _ | _
      · simp [Consumed.defect]
      · -- the response was the write: it has been applied
        have hbody := hreply.2 x hx hx'.symm
        have hreflects : Reflects x.value cfg' := by
          rw [value_note, ← hbody] at hexpr
          rw [← hbody]
          simp only [cfg', consumeResourceCommon_of_differs hcs hetag]
          exact reflects_consume hclean hcs cfg hexpr
        rw [Write.note, if_pos ⟨hx', hreflects⟩] at happlied
        cases happlied
    · simp [Consumed.defect, missed, hx']
  · have hc : c = .skipped p reply.etag := by simp [c, consumed, hcs, hetag]
    have hstored : r.stored = some reply.etag := eq_of_beq hetag
    rw [hc]
    refine ⟨hread, fun y hy _ _ _ hnot => ?_⟩
    -- a write under the ETag skipped has been noticed
    have hne : reply.etag ≠ y.etag := by
      intro heq
      exact hnot (heq ▸ hstored)
    simp [Consumed.defect, missed, hne]

/-- A pass that consumed `p` has a fault for every write elsewhere. Kind: L -/
theorem fits_elsewhere (converter : Converter) (a : ApplyAnswers) {p q : Place} (hne : p ≠ q)
    (stored : Option ℕ) (reply : Reply) (r : Resource) :
    (consumed converter a p stored reply).Fits q r := by
  unfold consumed
  split
  · exact ⟨(fun _ h => nomatch h), fun _ _ _ _ _ _ => Option.some_ne_none _⟩
  · split_ifs
    all_goals
      refine ⟨fun etag h => ?_, fun _ _ _ _ _ _ => ?_⟩
      · rw [Consumed.etag?, if_neg hne] at h
        cases h
      · simp [Consumed.defect, missed, hne]

lemma sound_check (h : w.Sound) (a : GetAnswer) : (w.check a).Sound := by
  refine (h.get .member a).withPhase ?_ ?_
  · split_ifs
    · exact fun _ hgot => nomatch hgot
    · exact fun _ hgot => nomatch hgot
  · intro c hc p
    split_ifs at hc
    · cases hc
      exact ⟨(fun _ h => nomatch h), fun _ _ _ _ _ _ => Option.some_ne_none _⟩
    · cases hc

/-- What a GET has just given out is in the cache. Kind: L -/
theorem fits_of_get (h : w.Sound) (p : Place) {a : GetAnswer} (ha : efiError a.status = false) :
    ((w.resource p).reply a.hit).Fits ((w.get p a).resource p) := by
  apply ((h.get p a).resource p).cached
  simp [World.get, World.modify, Resource.get, ha]

lemma sound_getMember (h : w.Sound) (a : GetAnswer) : (w.getMember a).Sound := by
  unfold World.getMember
  rcases hstatus : efiError a.status with _ | _
  · refine (h.get .member a).withPhase ?_ fun _ hc => nomatch hc
    rintro reply ⟨⟩
    exact fits_of_get h .member hstatus
  · refine (h.get .member a).withPhase (fun _ hgot => nomatch hgot) ?_
    rintro c ⟨⟩ p
    exact ⟨(fun _ h => nomatch h), fun _ _ _ _ _ _ => Option.some_ne_none _⟩

/-- The response expected was once true of the resource it is from. Kind: L -/
theorem fits_expected (h : w.Sound) {got : Reply} (hgot : got.Fits (w.resource .member))
    (settings : GetAnswer) :
    (w.expected got settings).2.Fits
      ((w.get .settings settings).resource (w.expected got settings).1) := by
  unfold World.expected
  split_ifs with hstatus
  · exact hgot
  · exact fits_of_get h .settings (Bool.eq_false_iff.mpr hstatus)

lemma sound_settle (h : w.Sound) (converter : Converter) (a : ApplyAnswers) {p : Place}
    {reply : Reply} (hreply : reply.Fits (w.resource p)) :
    (w.settle converter a p reply).Sound where
  resource := (Function.forall_update_iff w.resource fun _ r => Resource.Sound r).mpr
    ⟨sound_note (h.resource p) _ _, fun q _ => h.resource q⟩
  got := fun _ hgot => nomatch hgot
  record := by
    rintro c ⟨⟩
    exact (Function.forall_update_iff w.resource fun q r => Consumed.Fits _ q r).mpr
      ⟨fits_consumed converter a w.cfg hreply, fun q hq => fits_elsewhere converter a hq.symm ..⟩

/-- A step that runs over the writes to one resource, with the record of the pass. Kind: L -/
theorem World.Sound.overrun (h : w.Sound) {c : Consumed} (hc : w.phase.record = some c) {p : Place}
    {f : Resource → Resource} (hsound : (f (w.resource p)).Sound)
    (hwrites : (f (w.resource p)).writes =
      (w.resource p).writes.map (Write.overrun c p (w.resource p).etag))
    (hetag : (w.resource p).etag ≤ (f (w.resource p)).etag) : (w.modify p f).Sound := by
  refine h.modify hsound (fun reply hreply => hreply.of_overrun hetag hwrites) ?_
  intro c' hc' hfits
  obtain rfl : c = c' := Option.some.inj (hc.symm.trans hc')
  exact record_overrun (h.resource p) hfits hwrites hetag

lemma sound_patchMember (h : w.Sound) (merge : Json → Json → Json) (r : PropertyReads)
    (outcome : PatchOutcome) {c : Consumed} (hc : w.phase.record = some c) :
    (w.patch merge r outcome c).Sound := by
  cases outcome with
  | notSent => exact h.withIdle
  | lost => exact h.withIdle
  | taken response =>
      refine (h.overrun hc (sound_patch (h.resource .member) (h.record c hc .member) _) rfl
        (Nat.le_succ _)).goOn ?_ ?_
      · split_ifs <;> rfl
      · intro c' hc'
        split_ifs at hc'
        · cases hc'
        · exact hc.trans hc'

lemma sound_storeEtagAt (h : w.Sound) (p : Place) (response : EfiStatus) {c : Consumed}
    (hc : w.phase.record = some c) {next : Phase} (hgot : next.got = none)
    (hrecord : ∀ c' ∈ next.record, c' = c) : (w.storeEtag p response c next).Sound := by
  unfold World.storeEtag
  split_ifs
  · exact h.withIdle
  · refine (h.overrun hc (sound_storeEtag (h.resource p) (h.record c hc p)) rfl
      (Nat.le_refl _)).goOn hgot ?_
    intro c' hc'
    rw [hrecord c' hc']
    exact hc

variable (converter : Converter) (merge : Json → Json → Json)

lemma sound_step (w : World) (e : SyncEvent) (t : World) (h : w.Sound)
    (hstep : (sync converter merge).step w e = some t) : t.Sound := by
  unfold sync at hstep
  dsimp only at hstep
  split at hstep <;> cases hstep
  · exact h.modify (sound_write (h.resource _) _) (fun _ hreply => fits_write hreply _)
      fun _ _ hc => record_write hc _
  · exact h.get _ _
  · exact h.goOn rfl fun _ hc => nomatch hc
  · exact sound_check h _
  · exact sound_getMember h _
  · rename_i got hphase
    have hgot := h.got got (by rw [hphase]; rfl)
    exact sound_settle (h.get _ _) converter _ (fits_expected h hgot _)
  · rename_i c hphase
    refine (h.get _ _).goOn (by split_ifs <;> rfl) ?_
    intro c' hc'
    split_ifs at hc'
    · cases hc'
    · cases hc'
      exact congrArg Phase.record hphase
  · rename_i hphase
    exact sound_patchMember h merge _ _ (by rw [hphase]; rfl)
  · rename_i hphase
    refine sound_storeEtagAt h _ _ (by rw [hphase]; rfl) rfl ?_
    rintro c' ⟨⟩
    rfl
  · rename_i hphase
    exact sound_storeEtagAt h _ _ (by rw [hphase]; rfl) rfl fun _ hc => nomatch hc
  · exact ⟨fun p => sound_forget (h.resource p), (fun _ hgot => nomatch hgot),
      fun _ hc => nomatch hc⟩

/-! ### Every run -/

/-- Where a run may start: no pass is under way, nothing is cached, and no ETag stored is one of the
future.
Kind: D -/
def World.Fresh (w : World) : Prop :=
  w.phase = .idle ∧ ∀ p, (w.resource p).writes = [] ∧ (w.resource p).cached = none ∧
    ∀ etag ∈ (w.resource p).stored, etag ≤ (w.resource p).etag

lemma World.Fresh.sound (h : w.Fresh) : w.Sound := by
  obtain ⟨hphase, hresource⟩ := h
  refine ⟨fun p => ?_, ?_, ?_⟩
  · obtain ⟨hwrites, hcached, hstored⟩ := hresource p
    have hnone : (w.resource p).writes.head? = none := by rw [hwrites]; rfl
    refine ⟨hstored, ⟨Nat.le_refl _, ?_⟩, ?_, ?_, ?_⟩
    · rw [hnone]
      exact fun _ hx => nomatch hx
    · rw [hcached]
      exact fun _ hreply => nomatch hreply
    · rw [hnone]
      exact fun _ hx => nomatch hx
    · rw [hnone]
      exact fun _ hx => nomatch hx
  · rw [hphase]
    exact fun _ hgot => nomatch hgot
  · rw [hphase]
    exact fun _ hc => nomatch hc

/-- A converter of the documented kind that never fails. Kind: D -/
def plainConverter : Converter where
  toStructure member := .ok {
    dhcpv4 := some (dhcpFlag member)
    ipv4StaticAddresses := ((staticAddresses member).getD []).map fun item => ⟨true, some item⟩
    staticNameServers := ((nameServers member).getD []).map stringOf }
  dhcpv4 := by
    rintro member cs ⟨⟩
    rfl
  ipv4StaticAddresses := by
    rintro member cs ⟨⟩
    rfl
  staticNameServers := by
    rintro member cs ⟨⟩
    rfl

/-- A member with the flag and the name servers. Kind: D -/
def memberOf (dhcpEnabled : Bool) (servers : List (List UInt8)) : Json :=
  .obj [(ascii "DHCPv4", .obj [(ascii "DHCPEnabled", .bool dhcpEnabled)]),
    (ascii "StaticNameServers", .arr (servers.map Json.str))]

/-- The first pass of a host that has a name server configured. Kind: D -/
def firstBoot : World where
  resource _ := ⟨memberOf true [ascii "9.9.9.9"], 1, none, none, []⟩
  cfg := ⟨true, fun q => if q = .dns1 then ascii "9.9.9.9" else []⟩
  phase := .idle

def answers (apply : EfiStatus) : ApplyAnswers := ⟨fun _ => true, fun _ => apply⟩

/-- A GET that goes to the BMC, one out of the cache, and one that fails. Kind: D -/
def fetched : GetAnswer := ⟨efiSuccess, false⟩

def fromCache : GetAnswer := ⟨efiSuccess, true⟩

def getFails : GetAnswer := ⟨efiDeviceError, false⟩

/-- The requests of an update that goes well, on a member without pending settings. Kind: D -/
def update : List SyncEvent :=
  [.get fetched, .patch ⟨fun _ => true, none⟩ (.taken efiSuccess), .store efiSuccess,
    .storeSettings efiNotFound]

/-- What the operator wants: another name server, and no DHCP. Kind: D -/
def wanted : Json := memberOf false [ascii "1.1.1.1"]

/-- A write to the member, and a pass with the given check and consume steps behind it. Kind: D -/
def writeThenPass (steps : List SyncEvent) : List SyncEvent :=
  [.write .member wanted, .handleResource] ++ steps ++ update

/-- Operator and host from `firstBoot` on, with a BMC that takes a PATCH for the whole member.
Kind: D -/
def runFromBoot (es : List SyncEvent) : Option World :=
  (sync plainConverter fun _ sent => sent).run firstBoot es

/-- A write, and a pass in which nothing fails. Kind: D -/
def goodRun : List SyncEvent :=
  writeThenPass [.check fetched, .getMember fetched, .consume getFails (answers efiSuccess)]

/-- The account of every write to `p` at the end of a run: applied, still waiting, lost. Kind: D -/
def accounts (p : Place) (es : List SyncEvent) : Option (List (Bool × Bool × Option Defect)) :=
  (runFromBoot es).map fun w =>
    let r := w.resource p
    r.writes.map fun x => (x.applied, r.etag == x.etag && r.stored != some x.etag, x.lost)

end NucBios.Ethernet
