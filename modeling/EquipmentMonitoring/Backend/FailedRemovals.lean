import EquipmentMonitoring.Backend.OrphanAccounts

/-!
# Removals that Fail (`devices/service.py`)

`remove_device` disables the account inside of its transaction and enables it again when the commit
raises. What it knows by then is that it asked for the account to be disabled, not whether the
account had been enabled before.

## Key Results

- `removal_outcome`: the three ways in which the body of the transaction ends
- `removal_restores_iff`: a removal that raises restores everything, unless the account had been
  disabled before
- `disabled_account_enabled`: such an account, which is enabled by a removal that fails
-/

namespace EquipmentMonitoring.Devices

open Program

variable {security : DynamicSecurity} {ι : Type} {pattern : Site → Outcome}
  {w w' : World security ι} {deviceId : Bytes}

/-! ## Before and After -/

/-- The registry and all accounts are as they were. -/
def Restored (w w' : World security ι) : Prop :=
  w'.devices = w.devices ∧ ∀ username, w'.client username = w.client username

/-- The body of the transaction returns: the row can be deleted, and a managed account is missing
or gets disabled. -/
structure CommitReached (pattern : Site → Outcome) (w : World security ι) (deviceId : Bytes) :
    Prop where
  row : ∃ device, w.devices deviceId = some device
  unused : w.history deviceId = false
  account : w.Managed deviceId → pattern .disableLookup = .confirmed ∧
    ∀ client, w.client deviceId = some client →
      client.isManaged = true ∧ pattern .disabling = .confirmed

/-- The account of a managed row is disabled before the call. -/
def AlreadyDisabled (w : World security ι) (deviceId : Bytes) : Prop :=
  w.Managed deviceId ∧ ∃ client, w.client deviceId = some client ∧ client.disabled = true

/-- How the body of `remove_device` ends, and what it leaves to the commit. -/
inductive BodyOutcome (pattern : Site → Outcome) (w : World security ι) (i : ι) (deviceId : Bytes)
    (w' : World security ι) : Except Failure Bool → Prop where
  | raised (failure : Failure) (hreached : ¬ CommitReached pattern w deviceId)
      (hclient : ∀ username, w'.client username = w.client username) :
      BodyOutcome pattern w i deviceId w' (.error failure)
  | untouched (hreached : CommitReached pattern w deviceId) (hheld : w'.held deviceId = some (i, none))
      (hclient : ∀ username, w'.client username = w.client username)
      (hdisabled : ¬ AlreadyDisabled w deviceId) : BodyOutcome pattern w i deviceId w' (.ok false)
  | disabled (client : Client) (hreached : CommitReached pattern w deviceId)
      (hheld : w'.held deviceId = some (i, none)) (hmanaged : w.Managed deviceId)
      (hfound : w.client deviceId = some client)
      (hothers : ∀ username, username ≠ deviceId → w'.client username = w.client username)
      (hdisabled : w'.client deviceId = some { client with disabled := true }) :
      BodyOutcome pattern w i deviceId w' (.ok true)

/-- The row of a transaction whose commit is lost comes back; one that is committed is gone. -/
theorem devices_restored_iff {w₁ w₂ : World security ι} (hdevices : w₁.devices = w.devices)
    (hrow : ∃ device, w.devices deviceId = some device)
    (hconcluded : Concluded pattern w₁ deviceId none w₂) :
    w₂.devices = w.devices ↔ pattern .commit = .notApplied := by
  constructor
  · intro hsame
    -- a commit that takes effect removes the row, which was there before
    by_contra happlied
    obtain ⟨device, hdevice⟩ := hrow
    rw [← hsame, hconcluded.applied happlied] at hdevice
    simp at hdevice
  · intro hlost
    funext username
    rw [← hdevices]
    by_cases hself : username = deviceId
    · subst hself
      exact hconcluded.lost hlost
    · exact hconcluded.others username hself

/-- The account had been disabled and is enabled: it is as it was, if it was enabled. -/
theorem restored_client_iff {client : Client} (hfound : w.client deviceId = some client)
    (hothers : ∀ username, username ≠ deviceId → w'.client username = w.client username)
    (henabled : w'.client deviceId = some { client with disabled := false }) :
    (∀ username, w'.client username = w.client username) ↔ client.disabled = false := by
  constructor
  · intro hsame
    -- enabling leaves an account as it was only if it was enabled
    have hclient : { client with disabled := false } = client :=
      Option.some.inj (henabled.symm.trans ((hsame deviceId).trans hfound))
    rw [← hclient]
  · intro hdisabled username
    by_cases hself : username = deviceId
    · subst hself
      rw [henabled, hfound, ← hdisabled]
    · exact hothers username hself

/-! ## The Body of the Transaction -/

/-- A command that is confirmed or not applied decides about the commit. -/
theorem outcome_of_effect {i : ι} {result : Except Failure Bool}
    (hmanaged : w.Managed deviceId) (hunused : w.history deviceId = false)
    (hheld : w'.held deviceId = some (i, none)) (happlied : pattern .disabling ≠ .unconfirmed)
    (h : BrokerAdmin.DisableEffect pattern w deviceId result w'.broker) :
    BodyOutcome pattern w i deviceId w' result := by
  -- A managed device has a row, so the removal reaches the broker.
  have hrow : ∃ device, w.devices deviceId = some device :=
    hmanaged.imp fun device hdevice => hdevice.1
  cases h with
  | unanswered _ failure hsite hsame =>
    exact .raised failure (fun h => hsite (h.account hmanaged).1) hsame
  | absent _ hsite hnone hsame =>
    refine .untouched ⟨hrow, hunused, fun _ => ⟨hsite, fun client hfound => ?_⟩⟩ hheld hsame ?_
    · simp [hnone] at hfound
    · rintro ⟨-, client, hfound, -⟩
      simp [hnone] at hfound
  | unmanaged _ failure client hfound hrole hsame =>
    refine .raised failure (fun h => ?_) hsame
    have hclient := ((h.account hmanaged).2 client hfound).1
    simp [hrole] at hclient
  | managed _ client hsite hfound hrole hchanged =>
    by_cases hconfirmed : pattern .disabling = .confirmed
    · rw [if_pos hconfirmed]
      have hreached : CommitReached pattern w deviceId := by
        refine ⟨hrow, hunused, fun _ => ⟨hsite, fun other hother => ?_⟩⟩
        obtain rfl := Option.some.inj (hfound.symm.trans hother)
        exact ⟨hrole, hconfirmed⟩
      refine .disabled client hreached hheld hmanaged hfound hchanged.others ?_
      refine (hchanged.applied (by simp [hconfirmed])).trans ?_
      rw [hfound]
      rfl
    · rw [if_neg hconfirmed]
      -- neither confirmed nor left in doubt: the command was not applied
      have hlost : pattern .disabling = .notApplied := by
        cases h : pattern .disabling <;> simp_all
      refine .raised _ (fun h => ?_) fun username => ?_
      · exact hconfirmed ((h.account hmanaged).2 client hfound).2
      · by_cases hself : username = deviceId
        · subst hself
          exact hchanged.lost hlost
        · exact hchanged.others username hself

variable [DecidableEq ι] (i : ι)

/-- The body ends in one of three ways. -/
theorem removal_outcome (hidle : ∀ deviceId, w.held deviceId = none)
    (happlied : pattern .disabling ≠ .unconfirmed) : ∃ w₁ result,
    (removal deviceId).run (perform pattern i) w = some (result, w₁) ∧
    w₁.devices = w.devices ∧ BodyOutcome pattern w i deviceId w₁ result := by
  by_cases h : w.Managed deviceId ∧ w.history deviceId = false
  · obtain ⟨w₁, result, hbody, hdevices, hheld, heffect⟩ := removal_effect pattern i h.1 h.2 hidle
    exact ⟨w₁, result, hbody, hdevices, outcome_of_effect h.1 h.2 hheld happlied heffect⟩
  · obtain ⟨w₁, result, hbody, hbroker, hdevices, hresult⟩ := removal_spared pattern i h hidle
    have hclient := World.client_of_broker hbroker
    refine ⟨w₁, result, hbody, hdevices, ?_⟩
    -- the body stops before the broker, or the row is deleted without asking it
    rcases hresult with ⟨failure, rfl, hstuck⟩ | ⟨rfl, hheld, device, hdevice, hrow, hunused⟩
    · refine .raised failure (fun hreached => ?_) hclient
      rcases hstuck with hmissing | hused
      · obtain ⟨device, hdevice⟩ := hreached.row
        simp [hmissing] at hdevice
      · simp [hreached.unused] at hused
    · have hunmanaged : ¬ w.Managed deviceId := fun hmanaged => h ⟨hmanaged, hunused⟩
      exact .untouched ⟨⟨device, hdevice⟩, hunused, fun hmanaged => absurd hmanaged hunmanaged⟩
        hheld hclient fun hdisabled => hunmanaged hdisabled.1

/-! ## The Whole Call -/

variable {i}

/-- The transaction raised after an account had been disabled: the account is enabled. -/
theorem removeDevice_compensated {w₂ : World security ι} {client : Client}
    (hcompensation : pattern .compensatingEnable = .confirmed)
    (htransaction : (transaction deviceId (removal deviceId)).run (perform pattern i) w =
      some (.ok (true, .error .commitFailed), w₂))
    (hclient : w₂.client deviceId = some client) : ∃ b,
    (removeDevice deviceId).run (perform pattern i) w =
      some (.error .commitFailed, w₂.withBroker b) ∧
    (∀ username, username ≠ deviceId →
      (w₂.withBroker b).client username = w₂.client username) ∧
    (w₂.withBroker b).client deviceId = some { client with disabled := false } := by
  obtain ⟨b, henable, henabled⟩ :=
    BrokerAdmin.enableDevice_run pattern i .compensatingEnable deviceId w₂
  rw [if_pos hcompensation, hclient, if_neg (Option.some_ne_none _)] at henable
  have hcompensated := unlessUnavailable_run pattern i henable (by simp)
  refine ⟨b, ?_, henabled.others, ?_⟩
  · rw [removeDevice, run_bind_ok htransaction]
    exact run_bind_ok hcompensated
  · refine (henabled.applied (by simp [hcompensation])).trans ?_
    rw [hclient]
    rfl

/-- A removal whose commit is confirmed does not raise. -/
theorem removeDevice_returns {w₂ : World security ι} {brokerDisabled : Bool}
    (htransaction : (transaction deviceId (removal deviceId)).run (perform pattern i) w =
      some (.ok (brokerDisabled, .ok ()), w₂)) : ∃ w',
    (removeDevice deviceId).run (perform pattern i) w = some (.ok (), w') := by
  cases brokerDisabled with
  | false =>
    refine ⟨w₂, ?_⟩
    rw [removeDevice, run_bind_ok htransaction]
    rfl
  | true =>
    obtain ⟨b, hdelete, -⟩ := BrokerAdmin.deleteDevice_run pattern i .cleanup deviceId w₂
    have hcleaned := unlessUnavailable_run pattern i hdelete (by split <;> simp [notConfirmed])
    refine ⟨w₂.withBroker b, ?_⟩
    rw [removeDevice, run_bind_ok htransaction]
    exact hcleaned

/-- A removal raises: when failing commands have not been applied and the compensation succeeds, it
has restored everything exactly if no commit was tried, or the commit took no effect and no managed
account had been disabled before. -/
theorem removal_restores_iff {failure : Failure} (hidle : ∀ deviceId, w.held deviceId = none)
    (hbroker : ∀ site, site ≠ .commit → pattern site ≠ .unconfirmed)
    (hcompensation : pattern .compensatingEnable = .confirmed)
    (hraised : (removeDevice deviceId).run (perform pattern i) w = some (.error failure, w')) :
    Restored w w' ↔ (CommitReached pattern w deviceId →
      pattern .commit ≠ .unconfirmed ∧ ¬ AlreadyDisabled w deviceId) := by
  obtain ⟨w₁, result, hbody, hdevices, houtcome⟩ := removal_outcome (w := w) i hidle
    (hbroker .disabling (by simp))
  -- a commit that was tried is not confirmed, or the call would not raise
  have hcommit {brokerDisabled : Bool} {w₂ : World security ι}
      (htransaction : (transaction deviceId (removal deviceId)).run (perform pattern i) w = some
        (.ok (brokerDisabled, if pattern .commit = .confirmed then .ok ()
          else .error .commitFailed), w₂)) : pattern .commit ≠ .confirmed := by
    intro hconfirmed
    rw [if_pos hconfirmed] at htransaction
    obtain ⟨w', hreturns⟩ := removeDevice_returns htransaction
    simp [hraised] at hreturns
  have hlost_iff (h : pattern .commit ≠ .confirmed) :
      pattern .commit = .notApplied ↔ pattern .commit ≠ .unconfirmed := by
    cases hsite : pattern .commit <;> simp_all
  cases houtcome with
  | raised failure' hreached hclient =>
    have hrun : (removeDevice deviceId).run (perform pattern i) w =
        some (.error failure', w₁.rollback i deviceId) := run_bind_error (transaction_error hbody)
    obtain ⟨-, rfl⟩ : failure' = failure ∧ w₁.rollback i deviceId = w' := by
      simpa [hraised] using hrun.symm
    refine iff_of_true ⟨(rollback_devices _ _).trans hdevices, fun username => ?_⟩
      fun h => absurd h hreached
    rw [World.client, World.accounts, rollback_broker]
    exact hclient username
  | untouched hreached hheld hclient hdisabled =>
    obtain ⟨w₂, htransaction, hconcluded⟩ := transaction_ok hbody hheld
    have hunconfirmed := hcommit htransaction
    rw [if_neg hunconfirmed] at htransaction
    have hrun : (removeDevice deviceId).run (perform pattern i) w =
        some (.error .commitFailed, w₂) := by
      rw [removeDevice, run_bind_ok htransaction]
      rfl
    obtain ⟨-, rfl⟩ : Failure.commitFailed = failure ∧ w₂ = w' := by simpa [hraised] using hrun.symm
    rw [Restored, devices_restored_iff hdevices hreached.row hconcluded, hlost_iff hunconfirmed]
    exact ⟨fun h _ => ⟨h.1, hdisabled⟩, fun h =>
      ⟨(h hreached).1, fun username => (hconcluded.client username).trans (hclient username)⟩⟩
  | disabled client hreached hheld hmanaged hfound hothers hdisabled =>
    obtain ⟨w₂, htransaction, hconcluded⟩ := transaction_ok hbody hheld
    have hunconfirmed := hcommit htransaction
    rw [if_neg hunconfirmed] at htransaction
    obtain ⟨b, hrun, hkept, henabled⟩ := removeDevice_compensated hcompensation htransaction
      ((hconcluded.client deviceId).trans hdisabled)
    obtain ⟨-, rfl⟩ : Failure.commitFailed = failure ∧ w₂.withBroker b = w' := by
      simpa [hraised] using hrun.symm
    have hclients : (∀ username, (w₂.withBroker b).client username = w.client username) ↔
        client.disabled = false :=
      restored_client_iff hfound (fun username hne => (hkept username hne).trans
        ((hconcluded.client username).trans (hothers username hne))) henabled
    have hrows : w₂.devices = w.devices ↔ pattern .commit = .notApplied :=
      devices_restored_iff hdevices hreached.row hconcluded
    have halready : ¬ AlreadyDisabled w deviceId ↔ client.disabled = false := by
      constructor
      · intro h
        by_contra htrue
        exact h ⟨hmanaged, client, hfound, by simpa using htrue⟩
      · rintro hfalse ⟨-, other, hother, htrue⟩
        obtain rfl := Option.some.inj (hfound.symm.trans hother)
        simp [hfalse] at htrue
    have hrestored : Restored w (w₂.withBroker b) ↔
        pattern .commit ≠ .unconfirmed ∧ ¬ AlreadyDisabled w deviceId := by
      rw [halready, ← hclients, ← hlost_iff hunconfirmed, ← hrows]
      rfl
    exact hrestored.trans ⟨fun h _ => h, fun h => h hreached⟩

/-- A managed device, with its account. -/
def managedWorld (client : Client) : World .plain Unit where
  gateways _ := none
  devices := Function.update (fun _ => none) (ascii "pump-1") (some
    { gatewayId := ascii "gateway-1", name := ascii "Pump", enabled := true, passwordHash := none,
      mqttManaged := true })
  held _ := none
  history _ := false
  legacyFile := []
  broker := ⟨Function.update (fun _ => none) (ascii "pump-1") (some client), fun _ => true⟩

/-- The commit fails, and nothing else does. -/
def commitFails (site : Site) : Outcome := if site = .commit then .notApplied else .confirmed

theorem commitFails_run (disabled : Bool) : ∃ w',
    (removeDevice (ascii "pump-1")).run (perform commitFails ())
      (managedWorld ⟨[deviceRole], disabled⟩) = some (.error .commitFailed, w') ∧
    w'.client (ascii "pump-1") = some createdClient :=
  ⟨_, rfl, rfl⟩

theorem removal_restores_sample : ∃ w',
    (removeDevice (ascii "pump-1")).run (perform commitFails ()) (managedWorld createdClient) =
      some (.error .commitFailed, w') ∧ Restored (managedWorld createdClient) w' := by
  obtain ⟨w', hraised, -⟩ := commitFails_run false
  refine ⟨w', hraised, (removal_restores_iff (fun _ => rfl) (fun site _ => ?_) rfl hraised).mpr ?_⟩
  · cases site <;> decide
  · rintro -
    refine ⟨by decide, ?_⟩
    rintro ⟨-, client, hfound, hdisabled⟩
    obtain rfl := Option.some.inj hfound
    simp at hdisabled

/-- An account that was disabled, so that its device could not log in, is enabled by the removal
that fails. -/
theorem disabled_account_enabled : ∃ w',
    (removeDevice (ascii "pump-1")).run (perform commitFails ())
      (managedWorld ⟨[deviceRole], true⟩) = some (.error .commitFailed, w') ∧
    (managedWorld ⟨[deviceRole], true⟩).client (ascii "pump-1") = some ⟨[deviceRole], true⟩ ∧
    w'.client (ascii "pump-1") = some ⟨[deviceRole], false⟩ ∧
    ¬ Restored (managedWorld ⟨[deviceRole], true⟩) w' := by
  obtain ⟨w', hraised, hclient⟩ := commitFails_run true
  refine ⟨w', hraised, rfl, hclient, fun hrestored => ?_⟩
  have hsame := (hclient.symm.trans (hrestored.2 (ascii "pump-1")))
  exact absurd (Option.some.inj hsame) (by decide)

end EquipmentMonitoring.Devices
