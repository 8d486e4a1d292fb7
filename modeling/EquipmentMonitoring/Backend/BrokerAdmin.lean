import EquipmentMonitoring.Backend.DeviceService

/-!
# The Broker's Part of a Management Call

What `BrokerAdmin` returns and leaves in the broker, when a call runs alone and each command may be
confirmed, may fail without effect, or may take effect without being confirmed.

## Key Results

- `createDevice_run`: an account is created when nothing stands in its way and the command takes
  effect; only if it is confirmed does the code know
- `ensureDevice_run`: the same of the later set-up, which creates an account or enables one
- `disableDevice_effect`: what becomes of an account that is to be disabled
-/

namespace EquipmentMonitoring.Devices

open Program

variable {security : DynamicSecurity} {ι : Type} {pattern : Site → Outcome}

/-! ## Accounts and Rows -/

/-- A device can use the account: it is enabled and carries the device role. -/
def Client.isUsable (client : Client) : Bool := !client.disabled && client.isManaged

theorem Client.isUsable_enabled {client : Client} (h : client.isManaged = true) :
    Client.isUsable { client with disabled := false } = true := h

namespace World

def Usable (w : World security ι) (username : Bytes) : Prop :=
  ∃ client, w.client username = some client ∧ client.isUsable = true

/-- The registry has a row with `mqtt_managed`. -/
def Managed (w : World security ι) (deviceId : Bytes) : Prop :=
  ∃ device, w.devices deviceId = some device ∧ device.mqttManaged = true

theorem not_usable_of {w w' : World security ι} {username : Bytes} (h : ¬ w.Usable username)
    (hclient : w'.client username = w.client username ∨ w'.client username = none) :
    ¬ w'.Usable username := by
  rintro ⟨client, hfound, husable⟩
  rcases hclient with hsame | hnone
  · exact h ⟨client, hsame ▸ hfound, husable⟩
  · simp [hnone] at hfound

def NoOrphan (w : World security ι) : Prop := ∀ deviceId, w.Usable deviceId → w.Managed deviceId

def withBroker (w : World security ι) (broker : security.State) : World security ι :=
  { w with broker := broker }

@[simp] theorem accounts_withBroker (w : World security ι) (broker : security.State) :
    (w.withBroker broker).accounts = security.accounts broker := rfl

@[simp] theorem withBroker_withBroker (w : World security ι) (b b' : security.State) :
    (w.withBroker b).withBroker b' = w.withBroker b' := rfl

end World

/-! ## When an Account is Created -/

/-- `_ensure_role` finds the role or creates it. -/
def RoleEnsured (pattern : Site → Outcome) (accounts : Accounts) : Prop :=
  pattern .roleLookup = .confirmed ∧
    (accounts.roles deviceRole = true ∨ pattern .roleCreation = .confirmed)

/-- The legacy password file is there, and has no account of this name. -/
def LegacyFree (pattern : Site → Outcome) (w : World security ι) (deviceId : Bytes) : Prop :=
  pattern .legacyFile = .confirmed ∧ Utf8.valid w.legacyFile = true ∧
    hasLine w.legacyFile deviceId = false

/-- There is no account, or a disabled one that its role allows to clear. -/
def Clearable (pattern : Site → Outcome) (w : World security ι) (deviceId : Bytes) : Prop :=
  w.client deviceId = none ∨ pattern .clearing = .confirmed ∧
    ∃ client, w.client deviceId = some client ∧ (client.disabled && client.isManaged) = true

/-- `create_device` sends `createClient`. -/
structure CreationReached (pattern : Site → Outcome) (w : World security ι) (deviceId : Bytes) :
    Prop where
  lookup : pattern .createLookup = .confirmed
  clearable : Clearable pattern w deviceId
  legacyFree : LegacyFree pattern w deviceId
  roleEnsured : RoleEnsured pattern w.accounts

/-- The account that `create_device` creates. -/
def createdClient : Client := ⟨[deviceRole], false⟩

/-- What a request for an account returns and leaves, if `reached` says whether it comes to send
`createClient`. -/
structure Creates (pattern : Site → Outcome) (reached : Prop) (w : World security ι)
    (deviceId : Bytes) (result : Except Failure Bool) (broker : security.State) : Prop where
  others : ∀ username, username ≠ deviceId →
    (security.accounts broker).clients username = w.client username
  created : reached ∧ pattern .creation ≠ .notApplied →
    (security.accounts broker).clients deviceId = some createdClient
  kept : ¬ (reached ∧ pattern .creation ≠ .notApplied) →
    (security.accounts broker).clients deviceId = w.client deviceId ∨
      (security.accounts broker).clients deviceId = none
  returned : result = .ok true ↔ reached ∧ pattern .creation = .confirmed
  raised : reached → pattern .creation ≠ .confirmed → ∃ failure, result = .error failure

theorem Creates.of_unreached {reached : Prop} {w : World security ι} {deviceId : Bytes}
    {result : Except Failure Bool} (h : ¬ reached) (hresult : result ≠ .ok true) :
    Creates pattern reached w deviceId result w.broker where
  others _ _ := rfl
  created hreached := absurd hreached.1 h
  kept _ := .inl rfl
  returned := ⟨fun hok => absurd hok hresult, fun hreached => absurd hreached.1 h⟩
  raised hreached := absurd hreached h

theorem creationReached_congr {w w' : World security ι} {deviceId : Bytes}
    (haccounts : w'.accounts = w.accounts) (hfile : w'.legacyFile = w.legacyFile) :
    CreationReached pattern w' deviceId ↔ CreationReached pattern w deviceId := by
  have hclient : w'.client deviceId = w.client deviceId := World.client_congr haccounts deviceId
  constructor
  · rintro ⟨hlookup, hclearable, hfree, hrole⟩
    rw [Clearable, hclient] at hclearable
    rw [LegacyFree, hfile] at hfree
    exact ⟨hlookup, hclearable, hfree, haccounts ▸ hrole⟩
  · rintro ⟨hlookup, hclearable, hfree, hrole⟩
    refine ⟨hlookup, ?_, ?_, haccounts.symm ▸ hrole⟩
    · rw [Clearable, hclient]
      exact hclearable
    · rw [LegacyFree, hfile]
      exact hfree

/-- What comes before `createClient` may clear the account, and leaves the others alone. -/
theorem Creates.after {reached reached' : Prop} {w w' : World security ι} {deviceId : Bytes}
    {result : Except Failure Bool} {broker : security.State}
    (h : Creates pattern reached w' deviceId result broker) (hreached : reached ↔ reached')
    (hothers : ∀ username, username ≠ deviceId → w'.client username = w.client username)
    (hkept : w'.client deviceId = w.client deviceId ∨ w'.client deviceId = none) :
    Creates pattern reached' w deviceId result broker where
  others username hne := (h.others username hne).trans (hothers username hne)
  created hcreated := h.created ⟨hreached.mpr hcreated.1, hcreated.2⟩
  kept hnot := by
    -- the account is kept or gone after the first step, and the creation adds none
    rcases h.kept fun hcreated => hnot ⟨hreached.mp hcreated.1, hcreated.2⟩ with hsame | hnone
    · rw [hsame]
      exact hkept
    · exact .inr hnone
  returned := by rw [h.returned, hreached]
  raised hr := h.raised (hreached.mpr hr)

/-! ## When an Account is Changed -/

/-- What a command at `site` leaves that changes one account. -/
structure Changed (pattern : Site → Outcome) (site : Site) (f : Client → Option Client)
    (w : World security ι) (deviceId : Bytes) (broker : security.State) : Prop where
  others : ∀ username, username ≠ deviceId →
    (security.accounts broker).clients username = w.client username
  applied : pattern site ≠ .notApplied →
    (security.accounts broker).clients deviceId = (w.client deviceId).bind f
  lost : pattern site = .notApplied →
    (security.accounts broker).clients deviceId = w.client deviceId
  roles : (security.accounts broker).roles = w.accounts.roles

theorem Changed.deleted {site : Site} {w : World security ι} {deviceId : Bytes}
    {broker : security.State} (h : Changed pattern site (fun _ => none) w deviceId broker)
    (happlied : pattern site ≠ .notApplied) :
    (security.accounts broker).clients deviceId = none := by
  rw [h.applied happlied]
  cases w.client deviceId <;> rfl

theorem Changed.deleted_or_kept {site : Site} {w : World security ι} {deviceId : Bytes}
    {broker : security.State} (h : Changed pattern site (fun _ => none) w deviceId broker) :
    (security.accounts broker).clients deviceId = w.client deviceId ∨
      (security.accounts broker).clients deviceId = none := by
  by_cases hlost : pattern site = .notApplied
  · exact .inl (h.lost hlost)
  · exact .inr (h.deleted hlost)

/-- `disable_device` has the account disabled. -/
structure DisablingConfirmed (pattern : Site → Outcome) (w : World security ι) (deviceId : Bytes) :
    Prop where
  lookup : pattern .disableLookup = .confirmed
  confirmed : pattern .disabling = .confirmed
  managed : ∃ client, w.client deviceId = some client ∧ client.isManaged = true

/-- What a request to disable an account returns and leaves. -/
structure Disables (pattern : Site → Outcome) (w : World security ι) (deviceId : Bytes)
    (result : Except Failure Bool) (broker : security.State) : Prop where
  others : ∀ username, username ≠ deviceId →
    (security.accounts broker).clients username = w.client username
  returned : result = .ok true ↔ DisablingConfirmed pattern w deviceId
  disabled : result = .ok true → ∃ client : Client, client.isManaged = true ∧
    (security.accounts broker).clients deviceId = some { client with disabled := true }
  absent : result = .ok false → (security.accounts broker).clients deviceId = none

/-- `ensure_device` sends the command at this place, which makes a usable account. -/
def GainsAt (pattern : Site → Outcome) (w : World security ι) (deviceId : Bytes) : Site → Prop
  | .creation => pattern .ensureLookup = .confirmed ∧ w.client deviceId = none ∧
      CreationReached pattern w deviceId
  | .enabling => pattern .ensureLookup = .confirmed ∧ pattern .passwordUpdate = .confirmed ∧
      ∃ client, w.client deviceId = some client ∧ (client.disabled && client.isManaged) = true
  | _ => False

/-- What `ensure_device` returns and leaves. -/
structure Prepares (pattern : Site → Outcome) (w : World security ι) (deviceId : Bytes)
    (result : Except Failure Bool) (broker : security.State) : Prop where
  others : ∀ username, username ≠ deviceId →
    (security.accounts broker).clients username = w.client username
  gained : ∀ site, GainsAt pattern w deviceId site → pattern site ≠ .notApplied →
    (w.withBroker broker).Usable deviceId
  kept : ¬ w.Usable deviceId →
    (∀ site, GainsAt pattern w deviceId site → pattern site = .notApplied) →
    ¬ (w.withBroker broker).Usable deviceId
  returned : ∀ site, GainsAt pattern w deviceId site → pattern site = .confirmed →
    result = .ok true
  raised : ∀ site, GainsAt pattern w deviceId site → pattern site ≠ .confirmed →
    ∃ failure, result = .error failure
  unmanaged : result = .ok false → ¬ (w.withBroker broker).Usable deviceId

theorem Prepares.of_unreached {w : World security ι} {deviceId : Bytes}
    {result : Except Failure Bool} {broker : security.State} (hresult : result ≠ .ok false)
    (hgains : ∀ site, ¬ GainsAt pattern w deviceId site)
    (hclient : ∀ username, (security.accounts broker).clients username = w.client username) :
    Prepares pattern w deviceId result broker where
  others username _ := hclient username
  gained site hg := absurd hg (hgains site)
  kept h _ := World.not_usable_of h (.inl (hclient deviceId))
  returned site hg := absurd hg (hgains site)
  raised site hg := absurd hg (hgains site)
  unmanaged hfalse := absurd hfalse hresult

theorem gainsAt_congr {w w' : World security ι} {deviceId : Bytes} {site : Site}
    (haccounts : w'.accounts = w.accounts) (hfile : w'.legacyFile = w.legacyFile) :
    GainsAt pattern w' deviceId site ↔ GainsAt pattern w deviceId site := by
  have hclient : w'.client deviceId = w.client deviceId := World.client_congr haccounts deviceId
  cases site <;> simp only [GainsAt, hclient, creationReached_congr haccounts hfile]

/-- The registry does not matter to the broker. -/
theorem Prepares.congr {w w' : World security ι} {deviceId : Bytes} {result : Except Failure Bool}
    {broker : security.State} (h : Prepares pattern w' deviceId result broker)
    (haccounts : w'.accounts = w.accounts) (hfile : w'.legacyFile = w.legacyFile) :
    Prepares pattern w deviceId result broker := by
  have hgains (site : Site) : GainsAt pattern w deviceId site ↔ GainsAt pattern w' deviceId site :=
    (gainsAt_congr haccounts hfile).symm
  have hclient := World.client_congr haccounts
  refine ⟨fun username hne => (h.others username hne).trans (hclient username),
    fun site hg => h.gained site ((hgains site).mp hg), fun hunusable hnone => ?_,
    fun site hg => h.returned site ((hgains site).mp hg),
    fun site hg => h.raised site ((hgains site).mp hg), h.unmanaged⟩
  exact h.kept (World.not_usable_of hunusable (.inl (hclient deviceId)))
    fun site hg => hnone site ((hgains site).mpr hg)

/-- `ensure_device`, where there is no account yet. -/
theorem Prepares.of_creates {deviceId : Bytes} {w : World security ι}
    {result : Except Failure Bool} {b : security.State}
    (hsite : pattern .ensureLookup = .confirmed) (habsent : w.client deviceId = none)
    (h : Creates pattern (CreationReached pattern w deviceId) w deviceId result b) :
    Prepares pattern w deviceId result b := by
  -- With no account to prepare, creation is the only step that could make it usable.
  have hgains {site : Site} (hg : GainsAt pattern w deviceId site) :
      site = .creation ∧ CreationReached pattern w deviceId := by
    cases site <;> simp_all [GainsAt]
  have hunusable : ¬ w.Usable deviceId := by
    rintro ⟨client, hfound, -⟩
    simp [habsent] at hfound
  refine ⟨h.others, ?_, fun _ hnone => ?_, ?_, ?_, fun hfalse => ?_⟩
  · intro site hg happlied
    obtain ⟨rfl, hreached⟩ := hgains hg
    exact ⟨createdClient, h.created ⟨hreached, happlied⟩, by decide⟩
  · refine World.not_usable_of hunusable (h.kept fun hreached => ?_)
    exact hreached.2 (hnone .creation ⟨hsite, habsent, hreached.1⟩)
  · intro site hg hconfirmed
    obtain ⟨rfl, hreached⟩ := hgains hg
    exact h.returned.mpr ⟨hreached, hconfirmed⟩
  · intro site hg hnot
    obtain ⟨rfl, hreached⟩ := hgains hg
    exact h.raised hreached hnot
  · refine World.not_usable_of hunusable (h.kept fun hreached => ?_)
    by_cases hconfirmed : pattern .creation = .confirmed
    · exact absurd (h.returned.mpr ⟨hreached.1, hconfirmed⟩) (by simp [hfalse])
    · obtain ⟨failure, hfailure⟩ := h.raised hreached.1 hconfirmed
      simp [hfalse] at hfailure

variable [DecidableEq ι] (pattern) (i : ι)

/-! ## Single Requests -/

def notConfirmed : Failure := .brokerUnavailable "MQTT broker did not confirm the change"

namespace BrokerAdmin

theorem one_run (site : Site) (command : Command) (w : World security ι) : ∃ b,
    (one site command).run (perform pattern i) w =
      some (if pattern site = .confirmed then .ok (w.accounts.documented command).1
        else .error notConfirmed, w.withBroker b) ∧
    security.accounts b =
      if pattern site = .notApplied then w.accounts else (w.accounts.documented command).2 := by
  have hanswer := w.handle_answer command
  have hsend := w.accounts_send command
  refine ⟨if pattern site = .notApplied then w.broker else (w.send command).broker, ?_, ?_⟩
  · have hperform : (one site command).run (perform pattern i) w =
        perform pattern i (.broker site command) w := run_request _ w
    rw [hperform]
    -- a failed request answers nothing; whether it was applied is the pattern's
    cases h : pattern site <;> simp [perform, h, hanswer, notConfirmed] <;> rfl
  · split
    · rfl
    · exact hsend

theorem getClient_run (site : Site) (username : Bytes) (w : World security ι) : ∃ b,
    (getClient site username).run (perform pattern i) w =
      some (if pattern site = .confirmed then .ok (w.client username) else .error notConfirmed,
        w.withBroker b) ∧ security.accounts b = w.accounts := by
  obtain ⟨b, hrun, haccounts⟩ := one_run pattern i site (.getClient username) w
  rw [Accounts.documented_getClient] at hrun haccounts
  refine ⟨b, ?_, by simpa using haccounts⟩
  by_cases hsite : pattern site = .confirmed
  · rw [if_pos hsite] at hrun ⊢
    rw [getClient, run_bind_ok hrun, World.client]
    cases w.accounts.clients username <;> simp
  · rw [if_neg hsite] at hrun ⊢
    exact run_bind_error hrun

theorem change_run (site : Site) (command : Command) {deviceId : Bytes}
    {f : Client → Option Client} (w : World security ι)
    (hcommand : ∀ accounts : Accounts, accounts.documented command = accounts.change deviceId f) :
    ∃ b, (one site command).run (perform pattern i) w =
      some (if pattern site = .confirmed then
          .ok (if w.client deviceId = none then .refused clientNotFound else .confirmed)
        else .error notConfirmed, w.withBroker b) ∧
    Changed pattern site f w deviceId b := by
  obtain ⟨b, hrun, haccounts⟩ := one_run pattern i site command w
  rw [hcommand] at hrun haccounts
  rw [Accounts.change_answer] at hrun
  refine ⟨b, hrun, ?_, ?_, ?_, ?_⟩
  · intro username hne
    rw [haccounts]
    split
    · rfl
    · exact Accounts.change_clients_ne _ _ _ hne
  · intro happlied
    rw [haccounts, if_neg happlied, Accounts.change_clients]
    rfl
  · intro hlost
    rw [haccounts, if_pos hlost]
    rfl
  · rw [haccounts]
    split
    · rfl
    · exact Accounts.change_roles _ _ _

theorem enableDevice_run (site : Site) (deviceId : Bytes) (w : World security ι) : ∃ b,
    (enableDevice site deviceId).run (perform pattern i) w =
      some (if pattern site = .confirmed then
          if w.client deviceId = none then
            .error (.brokerUnavailable "MQTT account enable failed")
          else .ok ()
        else .error notConfirmed, w.withBroker b) ∧
    Changed pattern site (fun c => some { c with disabled := false }) w deviceId b := by
  obtain ⟨b, hrun, hchanged⟩ := change_run pattern i site (.enableClient deviceId) w fun _ => rfl
  refine ⟨b, ?_, hchanged⟩
  by_cases hsite : pattern site = .confirmed
  · rw [if_pos hsite] at hrun ⊢
    rw [enableDevice, run_bind_ok hrun]
    cases w.client deviceId <;> simp [Answer.confirmed, Answer.refused]
  · rw [if_neg hsite] at hrun ⊢
    exact run_bind_error hrun

theorem deleteDevice_run (site : Site) (deviceId : Bytes) (w : World security ι) : ∃ b,
    (deleteDevice site deviceId).run (perform pattern i) w =
      some (if pattern site = .confirmed then .ok () else .error notConfirmed, w.withBroker b) ∧
    Changed pattern site (fun _ => none) w deviceId b := by
  obtain ⟨b, hrun, hchanged⟩ := change_run pattern i site (.deleteClient deviceId) w fun _ => rfl
  refine ⟨b, ?_, hchanged⟩
  by_cases hsite : pattern site = .confirmed
  · rw [if_pos hsite] at hrun ⊢
    rw [deleteDevice, run_bind_ok hrun]
    cases w.client deviceId <;> simp [Answer.confirmed, Answer.refused]
  · rw [if_neg hsite] at hrun ⊢
    exact run_bind_error hrun

end BrokerAdmin

/-! ## Creating an Account -/

namespace BrokerAdmin

theorem ensureRole_run (w : World security ι) : ∃ b result,
    ensureRole.run (perform pattern i) w = some (result, w.withBroker b) ∧
    (security.accounts b).clients = w.accounts.clients ∧
    (RoleEnsured pattern w.accounts → result = .ok () ∧
      (security.accounts b).roles deviceRole = true) ∧
    (¬ RoleEnsured pattern w.accounts → result = .error notConfirmed) := by
  obtain ⟨b, hlookup, haccounts⟩ :=
    one_run pattern i .roleLookup (.getRole deviceRole) w
  have hsame : security.accounts b = w.accounts := by simpa [Accounts.documented] using haccounts
  by_cases hsite : pattern .roleLookup = .confirmed
  · rw [if_pos hsite] at hlookup
    by_cases hknown : w.accounts.roles deviceRole = true
    · refine ⟨b, .ok (), ?_, by rw [hsame], fun _ => ⟨rfl, by rw [hsame, hknown]⟩, fun h => ?_⟩
      · rw [ensureRole, run_bind_ok hlookup]
        simp [Accounts.documented, hknown, Answer.confirmed]
      · exact absurd ⟨hsite, .inl hknown⟩ h
    · obtain ⟨b', hcreation, hcreated⟩ := one_run pattern i .roleCreation
        (.createRole deviceRole [⟨ascii "publishClientSend", deviceAcl, 1, true⟩]) (w.withBroker b)
      simp only [Accounts.documented, World.accounts_withBroker, World.withBroker_withBroker, hsame,
        hknown] at hcreation hcreated
      -- the lookup says that there is no such role, so the outcome of its creation decides
      have hrest : ensureRole.run (perform pattern i) w =
          (if pattern .roleCreation = .confirmed then some (.ok (), w.withBroker b')
            else some (.error notConfirmed, w.withBroker b')) := by
        rw [ensureRole, run_bind_ok hlookup]
        simp only [Accounts.documented, hknown, Answer.refused]
        by_cases hcreate : pattern .roleCreation = .confirmed
        · rw [if_pos hcreate] at hcreation ⊢
          simp [run_bind_ok hcreation, Answer.confirmed]
        · rw [if_neg hcreate] at hcreation ⊢
          simp [run_bind_error hcreation]
      have hclients : (security.accounts b').clients = w.accounts.clients := by
        rw [hcreated]
        split <;> rfl
      by_cases hcreate : pattern .roleCreation = .confirmed
      · rw [if_pos hcreate] at hrest
        refine ⟨b', .ok (), hrest, hclients, fun _ => ⟨rfl, ?_⟩, fun h => ?_⟩
        · simp [hcreated, hcreate]
        · exact absurd ⟨hsite, .inr hcreate⟩ h
      · rw [if_neg hcreate] at hrest
        refine ⟨b', .error notConfirmed, hrest, hclients, fun h => ?_, fun _ => rfl⟩
        rcases h.2 with h | h
        · exact absurd h hknown
        · exact absurd h hcreate
  · rw [if_neg hsite] at hlookup
    exact ⟨b, .error notConfirmed, run_bind_error hlookup, by rw [hsame],
      fun h => absurd h.1 hsite, fun _ => rfl⟩

theorem legacyAccountExists_run (username : Bytes) (w : World security ι) :
    (legacyAccountExists username).run (perform pattern i) w =
      some (if pattern .legacyFile = .confirmed then
          if Utf8.valid w.legacyFile then .ok (hasLine w.legacyFile username)
          else .error .undecodable
        else .error (.brokerUnavailable "MQTT credentials are unavailable"), w) := by
  have hread : readLegacyFile.run (perform pattern i) w = perform pattern i .readLegacyFile w :=
    run_request _ w
  rw [perform] at hread
  cases hsite : pattern .legacyFile with
  | confirmed =>
    rw [hsite] at hread
    rw [legacyAccountExists, run_bind_ok hread]
    cases Utf8.valid w.legacyFile <;> simp
  | notApplied =>
    rw [hsite] at hread
    exact run_bind_error hread
  | unconfirmed =>
    rw [hsite] at hread
    exact run_bind_error hread

theorem createClient_run (deviceId password : Bytes) {w : World security ι}
    (habsent : w.client deviceId = none) (hrole : w.accounts.roles deviceRole = true) : ∃ b,
    (one .creation (.createClient deviceId password [⟨deviceRole, 1⟩])).run (perform pattern i) w =
      some (if pattern .creation = .confirmed then .ok .confirmed else .error notConfirmed,
        w.withBroker b) ∧
    security.accounts b = if pattern .creation = .notApplied then w.accounts
      else w.accounts.setClient deviceId (some createdClient) := by
  have hdocumented : w.accounts.documented (.createClient deviceId password [⟨deviceRole, 1⟩]) =
      (.confirmed, w.accounts.setClient deviceId (some createdClient)) := by
    rw [World.client] at habsent
    simp [Accounts.documented, habsent, hrole, createdClient]
  obtain ⟨b, hrun, haccounts⟩ := one_run pattern i .creation
    (.createClient deviceId password [⟨deviceRole, 1⟩]) w
  rw [hdocumented] at hrun haccounts
  exact ⟨b, hrun, haccounts⟩

/-- Without a look at the role: the legacy file is not read, or it has the account. -/
theorem createAccount_legacy {deviceId : Bytes} (password : Bytes) {w : World security ι}
    (h : ¬ LegacyFree pattern w deviceId) : ∃ result,
    (createAccount deviceId password).run (perform pattern i) w = some (result, w) ∧
    result ≠ .ok true := by
  have hlegacy := legacyAccountExists_run pattern i deviceId w
  by_cases hread : pattern .legacyFile = .confirmed
  · rw [if_pos hread] at hlegacy
    cases hvalid : Utf8.valid w.legacyFile with
    | false =>
      rw [hvalid] at hlegacy
      exact ⟨_, run_bind_error hlegacy, by simp⟩
    | true =>
      -- the file was read and is text, so what forbids the creation is that it lists the device
      have hlisted : hasLine w.legacyFile deviceId = true := by
        by_contra hline
        exact h ⟨hread, hvalid, by simpa using hline⟩
      rw [hvalid, if_pos rfl, hlisted] at hlegacy
      have hlogin : (verifyLogin deviceId password).run (perform pattern i) w =
          perform pattern i (.verifyLogin deviceId password) w := run_request _ w
      rw [perform] at hlogin
      rw [createAccount, run_bind_ok hlegacy, if_pos rfl]
      cases hsite : pattern .login with
      | confirmed =>
        rw [hsite] at hlogin
        rw [run_bind_ok hlogin]
        cases security.login w.broker deviceId password <;> exact ⟨_, rfl, by simp⟩
      | notApplied =>
        rw [hsite] at hlogin
        exact ⟨_, run_bind_error hlogin, by simp⟩
      | unconfirmed =>
        rw [hsite] at hlogin
        exact ⟨_, run_bind_error hlogin, by simp⟩
  · rw [if_neg hread] at hlegacy
    exact ⟨_, run_bind_error hlegacy, by simp⟩

theorem createAccount_run (deviceId password : Bytes) {w : World security ι}
    (habsent : w.client deviceId = none) : ∃ b result,
    (createAccount deviceId password).run (perform pattern i) w = some (result, w.withBroker b) ∧
    Creates pattern (LegacyFree pattern w deviceId ∧ RoleEnsured pattern w.accounts) w deviceId
      result b := by
  -- the requests come in order: legacy file, role, creation; each case stops at the first refusal
  by_cases hfree : LegacyFree pattern w deviceId
  · have hlegacy := legacyAccountExists_run pattern i deviceId w
    rw [if_pos hfree.1, if_pos hfree.2.1, hfree.2.2] at hlegacy
    obtain ⟨b, result, hensure, hclients, hensured, hrefused⟩ :=
      ensureRole_run pattern i w
    by_cases hrole : RoleEnsured pattern w.accounts
    · obtain ⟨rfl, hknown⟩ := hensured hrole
      have habsent' : (w.withBroker b).client deviceId = none := by
        rw [World.client, World.accounts_withBroker, hclients]
        exact habsent
      obtain ⟨b', hcreate, hcreated⟩ := createClient_run pattern i deviceId
        password habsent' hknown
      rw [World.withBroker_withBroker] at hcreate
      refine ⟨b', if pattern .creation = .confirmed then .ok true else .error notConfirmed, ?_,
        ?_, ?_, ?_, ?_, ?_⟩
      · rw [createAccount, run_bind_ok hlegacy, if_neg (by decide), run_bind_ok hensure]
        by_cases hsite : pattern .creation = .confirmed
        · rw [if_pos hsite] at hcreate
          simp [run_bind_ok hcreate, hsite, Answer.confirmed]
        · rw [if_neg hsite] at hcreate
          simp [run_bind_error hcreate, hsite]
      · intro username hne
        rw [hcreated]
        split
        · exact congrFun hclients username
        · rw [Accounts.clients_setClient_ne hne]
          exact congrFun hclients username
      · intro h
        rw [hcreated, if_neg h.2, Accounts.clients_setClient]
      · intro h
        have hsite : pattern .creation = .notApplied := by
          by_contra hne
          exact h ⟨⟨hfree, hrole⟩, hne⟩
        rw [hcreated, if_pos hsite]
        exact .inl (congrFun hclients deviceId)
      · split <;> simp [*]
      · intro _ hsite
        exact ⟨notConfirmed, if_neg hsite⟩
    · -- the role could not be ensured, so the creation is never sent
      have hunreached : Creates pattern (LegacyFree pattern w deviceId ∧
          RoleEnsured pattern w.accounts) (w.withBroker b) deviceId (.error notConfirmed) b :=
        Creates.of_unreached (fun h => hrole h.2) (by simp)
      refine ⟨b, .error notConfirmed, ?_, hunreached.after Iff.rfl
        (fun username _ => congrFun hclients username) (.inl (congrFun hclients deviceId))⟩
      rw [createAccount, run_bind_ok hlegacy, if_neg (by decide)]
      exact run_bind_error (hrefused hrole ▸ hensure)
  · obtain ⟨result, hrun, hresult⟩ := createAccount_legacy pattern i password hfree
    exact ⟨w.broker, result, hrun, Creates.of_unreached (fun h => hfree h.1) hresult⟩

theorem createDevice_run (deviceId password : Bytes) (w : World security ι) : ∃ b result,
    (createDevice deviceId password).run (perform pattern i) w = some (result, w.withBroker b) ∧
    Creates pattern (CreationReached pattern w deviceId) w deviceId result b := by
  obtain ⟨b, hlookup, hsame⟩ := getClient_run pattern i .createLookup deviceId w
  -- The lookup reads: no account differs after it.
  have hclient (username : Bytes) : (w.withBroker b).client username = w.client username := by
    rw [World.client, World.accounts_withBroker, hsame]
    rfl
  by_cases hsite : pattern .createLookup = .confirmed
  · rw [if_pos hsite] at hlookup
    rw [createDevice, run_bind_ok hlookup]
    cases hexisting : w.client deviceId with
    | none =>
      obtain ⟨b', result, hrun, hcreates⟩ := createAccount_run pattern i
        deviceId password ((hclient deviceId).trans hexisting)
      refine ⟨b', result, hrun, hcreates.after ?_ (fun username _ => hclient username)
        (.inl (hclient deviceId))⟩
      rw [World.accounts_withBroker, hsame]
      exact ⟨fun h => ⟨hsite, .inl hexisting, h.1, h.2⟩, fun h => ⟨h.legacyFree, h.roleEnsured⟩⟩
    | some existing =>
      -- an existing account is cleared only where it is managed and disabled
      by_cases hclears : (existing.disabled && existing.isManaged) = true
      · obtain ⟨b', hdelete, hchanged⟩ :=
          deleteDevice_run pattern i .clearing deviceId (w.withBroker b)
        rw [World.withBroker_withBroker] at hdelete
        have hothers (username : Bytes) (hne : username ≠ deviceId) :
            (w.withBroker b').client username = w.client username :=
          (hchanged.others username hne).trans (hclient username)
        have hkept : (w.withBroker b').client deviceId = w.client deviceId ∨
            (w.withBroker b').client deviceId = none := by
          rw [← hclient]
          exact hchanged.deleted_or_kept
        dsimp only
        rw [if_pos hclears]
        by_cases hclearing : pattern .clearing = .confirmed
        · rw [if_pos hclearing] at hdelete
          have hcleared : (w.withBroker b').client deviceId = none :=
            hchanged.deleted (by simp [hclearing])
          obtain ⟨b'', result, hrun, hcreates⟩ := createAccount_run pattern i deviceId password
            hcleared
          refine ⟨b'', result, ?_, hcreates.after ?_ hothers hkept⟩
          · rw [run_bind_ok hdelete]
            exact hrun
          · -- clearing an account touches no role, so the role is ensured as from the start
            have hensured : RoleEnsured pattern (w.withBroker b').accounts ↔
                RoleEnsured pattern w.accounts := by
              rw [World.accounts_withBroker, RoleEnsured, hchanged.roles, World.accounts_withBroker,
                hsame, RoleEnsured]
            rw [hensured]
            exact ⟨fun h => ⟨hsite, .inr ⟨hclearing, existing, hexisting, hclears⟩, h.1, h.2⟩,
              fun h => ⟨h.legacyFree, h.roleEnsured⟩⟩
        · rw [if_neg hclearing] at hdelete
          have hunreached : Creates pattern (CreationReached pattern w deviceId) (w.withBroker b')
              deviceId (.error notConfirmed) b' := by
            refine Creates.of_unreached (fun h => ?_) (by simp)
            rcases h.clearable with hnone | ⟨hconfirmed, -⟩
            · simp [hexisting] at hnone
            · exact hclearing hconfirmed
          exact ⟨b', _, run_bind_error hdelete, hunreached.after Iff.rfl hothers hkept⟩
      · have hunreached : Creates pattern (CreationReached pattern w deviceId) (w.withBroker b)
            deviceId (.error (.brokerConflict "An MQTT account already uses this Device ID")) b := by
          refine Creates.of_unreached (fun h => ?_) (by simp)
          rcases h.clearable with hnone | ⟨-, client, hfound, hcleared⟩
          · simp [hexisting] at hnone
          · obtain rfl := Option.some.inj (hexisting.symm.trans hfound)
            exact hclears hcleared
        dsimp only
        rw [if_neg hclears]
        exact ⟨b, _, rfl, hunreached.after Iff.rfl (fun username _ => hclient username)
          (.inl (hclient deviceId))⟩
  · rw [if_neg hsite] at hlookup
    have hunreached : Creates pattern (CreationReached pattern w deviceId) (w.withBroker b)
        deviceId (.error notConfirmed) b := Creates.of_unreached (fun h => hsite h.lookup) (by simp)
    exact ⟨b, _, run_bind_error hlookup, hunreached.after Iff.rfl
      (fun username _ => hclient username) (.inl (hclient deviceId))⟩

/-! ## Disabling and Enabling an Account -/

/-- What a request to disable an account comes to. -/
inductive DisableEffect (pattern : Site → Outcome) (w : World security ι) (deviceId : Bytes) :
    Except Failure Bool → security.State → Prop where
  | unanswered (b : security.State) (failure : Failure) (hsite : pattern .disableLookup ≠ .confirmed)
      (hsame : ∀ username, (security.accounts b).clients username = w.client username) :
      DisableEffect pattern w deviceId (.error failure) b
  | absent (b : security.State) (hsite : pattern .disableLookup = .confirmed)
      (hnone : w.client deviceId = none)
      (hsame : ∀ username, (security.accounts b).clients username = w.client username) :
      DisableEffect pattern w deviceId (.ok false) b
  | unmanaged (b : security.State) (failure : Failure) (client : Client)
      (hfound : w.client deviceId = some client) (hrole : client.isManaged = false)
      (hsame : ∀ username, (security.accounts b).clients username = w.client username) :
      DisableEffect pattern w deviceId (.error failure) b
  | managed (b : security.State) (client : Client) (hsite : pattern .disableLookup = .confirmed)
      (hfound : w.client deviceId = some client) (hrole : client.isManaged = true)
      (hchanged : Changed pattern .disabling (fun c => some { c with disabled := true }) w deviceId
        b) :
      DisableEffect pattern w deviceId
        (if pattern .disabling = .confirmed then .ok true else .error notConfirmed) b

variable {pattern} in
omit [DecidableEq ι] in
/-- The registry does not matter to the broker. -/
theorem DisableEffect.congr {w w' : World security ι} {deviceId : Bytes}
    {result : Except Failure Bool} {b : security.State}
    (h : DisableEffect pattern w' deviceId result b) (haccounts : w'.accounts = w.accounts) :
    DisableEffect pattern w deviceId result b := by
  have hclient := World.client_congr haccounts
  cases h with
  | unanswered _ failure hsite hsame =>
    exact .unanswered b failure hsite fun username => (hsame username).trans (hclient username)
  | absent _ hsite hnone hsame =>
    exact .absent b hsite (hclient deviceId ▸ hnone)
      fun username => (hsame username).trans (hclient username)
  | unmanaged _ failure client hfound hrole hsame =>
    exact .unmanaged b failure client (hclient deviceId ▸ hfound) hrole
      fun username => (hsame username).trans (hclient username)
  | managed _ client hsite hfound hrole hchanged =>
    refine .managed b client hsite (hclient deviceId ▸ hfound) hrole ⟨?_, ?_, ?_, ?_⟩
    · exact fun username hne => (hchanged.others username hne).trans (hclient username)
    · exact fun happlied => hclient deviceId ▸ hchanged.applied happlied
    · exact fun hlost => (hchanged.lost hlost).trans (hclient deviceId)
    · rw [hchanged.roles, haccounts]

theorem disableDevice_effect (deviceId : Bytes) (w : World security ι) : ∃ b result,
    (disableDevice deviceId).run (perform pattern i) w = some (result, w.withBroker b) ∧
    DisableEffect pattern w deviceId result b := by
  obtain ⟨b, hlookup, hsame⟩ :=
    getClient_run pattern i .disableLookup deviceId w
  have hclient (username : Bytes) : (security.accounts b).clients username = w.client username := by
    rw [hsame]
    rfl
  by_cases hsite : pattern .disableLookup = .confirmed
  · rw [if_pos hsite] at hlookup
    rw [disableDevice, run_bind_ok hlookup]
    cases hexisting : w.client deviceId with
    | none => exact ⟨b, .ok false, rfl, .absent b hsite hexisting hclient⟩
    | some existing =>
      -- only an account with the device role is disabled; any other is a conflict
      by_cases hmanaged : existing.isManaged = true
      · obtain ⟨b', hdisable, hchanged⟩ := change_run pattern i .disabling
          (.disableClient deviceId) (w.withBroker b) fun _ => rfl
        have hfound : (w.withBroker b).client deviceId = some existing :=
          (hclient deviceId).trans hexisting
        rw [World.withBroker_withBroker, hfound, if_neg (Option.some_ne_none existing)] at hdisable
        refine ⟨b', if pattern .disabling = .confirmed then .ok true else .error notConfirmed,
          ?_, .managed b' existing hsite hexisting hmanaged ⟨?_, ?_, ?_, ?_⟩⟩
        · dsimp only
          rw [if_pos hmanaged]
          by_cases hconfirmed : pattern .disabling = .confirmed
          · rw [if_pos hconfirmed] at hdisable
            simp [run_bind_ok hdisable, hconfirmed, Answer.confirmed]
          · rw [if_neg hconfirmed] at hdisable
            simp [run_bind_error hdisable, hconfirmed]
        · exact fun username hne => (hchanged.others username hne).trans (hclient username)
        · exact fun happlied => hclient deviceId ▸ hchanged.applied happlied
        · exact fun hlost => (hchanged.lost hlost).trans (hclient deviceId)
        · rw [hchanged.roles, World.accounts_withBroker, hsame]
      · refine ⟨b, .error (.brokerConflict "MQTT account is not managed by device registration"),
          ?_, .unmanaged b _ existing hexisting (by simpa using hmanaged) hclient⟩
        dsimp only
        rw [if_neg hmanaged]
        rfl
  · rw [if_neg hsite] at hlookup
    exact ⟨b, _, run_bind_error hlookup, .unanswered b _ hsite hclient⟩

variable {pattern} in
omit [DecidableEq ι] in
theorem DisableEffect.disables {w : World security ι} {deviceId : Bytes}
    {result : Except Failure Bool} {b : security.State}
    (h : DisableEffect pattern w deviceId result b) : Disables pattern w deviceId result b := by
  cases h with
  | unanswered _ failure hsite hsame =>
    exact ⟨fun username _ => hsame username, ⟨by simp, fun h => absurd h.lookup hsite⟩, by simp,
      by simp⟩
  | absent _ hsite hnone hsame =>
    refine ⟨fun username _ => hsame username, ⟨by simp, fun h => ?_⟩, by simp,
      fun _ => (hsame deviceId).trans hnone⟩
    obtain ⟨client, hfound, -⟩ := h.managed
    simp [hnone] at hfound
  | unmanaged _ failure client hfound hrole hsame =>
    refine ⟨fun username _ => hsame username, ⟨by simp, fun h => ?_⟩, by simp, by simp⟩
    obtain ⟨other, hother, hmanaged⟩ := h.managed
    obtain rfl := Option.some.inj (hfound.symm.trans hother)
    simp [hrole] at hmanaged
  | managed _ client hsite hfound hrole hchanged =>
    have hreturned : (if pattern .disabling = .confirmed then Except.ok true
        else .error notConfirmed : Except Failure Bool) = .ok true →
          pattern .disabling = .confirmed := by
      intro h
      by_contra hnot
      simp [hnot] at h
    refine ⟨hchanged.others, ⟨fun h => ⟨hsite, hreturned h, client, hfound, hrole⟩,
      fun h => if_pos h.confirmed⟩, fun h => ⟨client, hrole, ?_⟩, fun h => ?_⟩
    · rw [hchanged.applied (by simp [hreturned h]), hfound]
      rfl
    · split at h <;> simp at h

/-- `ensure_device`, where the account is disabled and its password has been changed. -/
theorem enabling_run {deviceId : Bytes} {w w' : World security ι} {existing : Client}
    (hsite : pattern .ensureLookup = .confirmed) (hpassword : pattern .passwordUpdate = .confirmed)
    (hexisting : w.client deviceId = some existing) (hmanaged : existing.isManaged = true)
    (hdisabled : existing.disabled = true)
    (hclient : ∀ username, w'.client username = w.client username) : ∃ b result,
    (do enableDevice .enabling deviceId; return true : Management Bool).run (perform pattern i) w' =
      some (result, w'.withBroker b) ∧ Prepares pattern w deviceId result b := by
  have hfound : w'.client deviceId = some existing := (hclient deviceId).trans hexisting
  -- The password is set and the account was disabled: enabling is the one step left.
  have hgains {site : Site} (hg : GainsAt pattern w deviceId site) : site = .enabling := by
    cases site <;> simp_all [GainsAt]
  obtain ⟨b, henable, henabled⟩ := enableDevice_run pattern i .enabling deviceId w'
  rw [hfound, if_neg (Option.some_ne_none existing)] at henable
  refine ⟨b, if pattern .enabling = .confirmed then .ok true else .error notConfirmed,
    ?_, ?_, ?_, ?_, ?_, ?_, ?_⟩
  · by_cases henabling : pattern .enabling = .confirmed
    · rw [if_pos henabling] at henable ⊢
      exact run_bind_ok henable
    · rw [if_neg henabling] at henable ⊢
      exact run_bind_error henable
  · intro username hne
    exact (henabled.others username hne).trans (hclient username)
  · intro site hg happlied
    obtain rfl := hgains hg
    refine ⟨{ existing with disabled := false }, ?_, Client.isUsable_enabled hmanaged⟩
    refine (henabled.applied happlied).trans ?_
    rw [hfound]
    rfl
  · intro hunusable hnone
    have hnot : pattern .enabling = .notApplied :=
      hnone .enabling ⟨hsite, hpassword, existing, hexisting, by simp [hdisabled, hmanaged]⟩
    exact World.not_usable_of hunusable (.inl ((henabled.lost hnot).trans (hclient deviceId)))
  · intro site hg hconfirmed
    obtain rfl := hgains hg
    exact if_pos hconfirmed
  · intro site hg hnot
    obtain rfl := hgains hg
    exact ⟨notConfirmed, if_neg hnot⟩
  · intro hfalse
    split at hfalse <;> simp at hfalse

theorem ensureDevice_run (deviceId password : Bytes) (w : World security ι) : ∃ b result,
    (ensureDevice deviceId password).run (perform pattern i) w = some (result, w.withBroker b) ∧
    Prepares pattern w deviceId result b := by
  obtain ⟨b, hlookup, hsame⟩ := getClient_run pattern i .ensureLookup deviceId w
  have hclient (username : Bytes) : (security.accounts b).clients username = w.client username := by
    rw [hsame]
    rfl
  by_cases hsite : pattern .ensureLookup = .confirmed
  · rw [if_pos hsite] at hlookup
    rw [ensureDevice, run_bind_ok hlookup]
    cases hexisting : w.client deviceId with
    | none =>
      obtain ⟨b', result, hrun, hcreates⟩ := createDevice_run pattern i
        deviceId password (w.withBroker b)
      have hiff : CreationReached pattern (w.withBroker b) deviceId ↔
          CreationReached pattern w deviceId := creationReached_congr hsame rfl
      exact ⟨b', result, hrun, Prepares.of_creates hsite hexisting
        (hcreates.after hiff (fun username _ => hclient username) (.inl (hclient deviceId)))⟩
    | some existing =>
      have hgains {site : Site} (hg : GainsAt pattern w deviceId site) :
          pattern .passwordUpdate = .confirmed ∧
            (existing.disabled && existing.isManaged) = true := by
        cases site <;> simp_all [GainsAt]
      by_cases hmanaged : existing.isManaged = true
      · obtain ⟨b', hupdate, hupdated⟩ := change_run pattern i .passwordUpdate
          (.setClientPassword deviceId password) (w.withBroker b) fun _ => rfl
        have hfound : (w.withBroker b).client deviceId = some existing :=
          (hclient deviceId).trans hexisting
        rw [World.withBroker_withBroker, hfound, if_neg (Option.some_ne_none existing)] at hupdate
        -- setting the password changes what makes no account usable or unusable
        have hclient' (username : Bytes) :
            (security.accounts b').clients username = w.client username := by
          by_cases hself : username = deviceId
          · subst hself
            by_cases hlost : pattern .passwordUpdate = .notApplied
            · exact (hupdated.lost hlost).trans (hclient username)
            · rw [hupdated.applied hlost, hfound, hexisting]
              rfl
          · exact (hupdated.others username hself).trans (hclient username)
        dsimp only
        rw [if_pos hmanaged]
        by_cases hpassword : pattern .passwordUpdate = .confirmed
        · rw [if_pos hpassword] at hupdate
          rw [run_bind_ok hupdate]
          cases hdisabled : existing.disabled with
          | true => exact enabling_run pattern i hsite hpassword hexisting hmanaged hdisabled hclient'
          | false =>
            refine ⟨b', .ok true, rfl, Prepares.of_unreached (by simp) (fun site hg => ?_) hclient'⟩
            have hboth := (hgains hg).2
            simp [hdisabled] at hboth
        · rw [if_neg hpassword] at hupdate
          exact ⟨b', _, run_bind_error hupdate,
            Prepares.of_unreached (by simp) (fun site hg => hpassword (hgains hg).1) hclient'⟩
      · refine ⟨b, .error (.brokerConflict "An MQTT account already uses this Device ID"), ?_,
          Prepares.of_unreached (by simp) (fun site hg => ?_) hclient⟩
        · dsimp only
          rw [if_neg hmanaged]
          rfl
        · have hboth := (hgains hg).2
          simp [hmanaged] at hboth
  · rw [if_neg hsite] at hlookup
    refine ⟨b, _, run_bind_error hlookup, Prepares.of_unreached (by simp) (fun site hg => ?_) hclient⟩
    cases site <;> simp_all [GainsAt]

end BrokerAdmin

end EquipmentMonitoring.Devices
