import EquipmentMonitoring.Backend.BrokerAdmin

/-!
# Management Calls that Fail Half-Way

One management call alone, with any pattern of failures: each command and the commit may be
confirmed, may fail without effect, or may take effect without being confirmed. An account is an
orphan if a device could use it and no managed row of the registry has its name.

## Key Results

- `LeavesOrphan`: what has to fail in a call to leave an orphan
- `no_orphan_left_iff`: a call leaves no orphan exactly where that does not happen
-/

namespace EquipmentMonitoring.Devices

open Program

variable {security : DynamicSecurity} {ι : Type} {credentials : Credentials}
  {pattern : Site → Outcome}

/-! ## When a Call Leaves an Orphan -/

/-- The gateway and the name of a registration are in order, no text of it has NUL, and the device
is new. -/
structure Registrable (w : World security ι) (r : DeviceRegistration) : Prop where
  gateway : ∃ gateway, w.gateways r.gatewayId = some gateway ∧
    (gateway.enabled && gateway.siteEnabled) = true
  name : (strip r.name).isEmpty = false
  noNul : 0 ∉ r.deviceId ∧ 0 ∉ r.gatewayId ∧ 0 ∉ strip r.name
  fresh : w.devices r.deviceId = none

theorem storable_iff {deviceId : Bytes} {device : Device} : storable deviceId device = true ↔
    0 ∉ deviceId ∧ 0 ∉ device.gatewayId ∧ 0 ∉ device.name := by
  simp [storable, and_assoc]

theorem Registrable.not_usable {w : World security ι} {r : DeviceRegistration}
    (h : Registrable w r) (hstart : w.NoOrphan) :
    ¬ w.Usable r.deviceId := by
  intro husable
  obtain ⟨device, hdevice, -⟩ := hstart r.deviceId husable
  simp [h.fresh] at hdevice

/-- The command that makes an account usable takes effect, and the row does not follow: the command
is not confirmed, or the commit takes no effect. -/
def LeavesBehind (pattern : Site → Outcome) (site : Site) : Prop :=
  pattern site = .unconfirmed ∨ pattern site = .confirmed ∧ pattern .commit = .notApplied

/-- The password fits the row of the device. -/
def Verified (credentials : Credentials) (w : World security ι) (deviceId password : Bytes) : Prop :=
  ∃ device, w.devices deviceId = some device ∧
    credentials.verifyPassword password device.passwordHash = true

def LeavesOrphan (credentials : Credentials) (pattern : Site → Outcome) (w : World security ι) :
    Call → Prop
  | .register _ r => Registrable w r ∧ CreationReached pattern w r.deviceId ∧
      LeavesBehind pattern .creation ∧
      (pattern .creation = .confirmed → pattern .compensatingDelete = .notApplied)
  -- the row is gone, and the account is enabled as if it were still there
  | .remove deviceId => w.Managed deviceId ∧ w.history deviceId = false ∧
      DisablingConfirmed pattern w deviceId ∧ pattern .commit = .unconfirmed ∧
      pattern .compensatingEnable ≠ .notApplied
  -- nothing compensates here
  | .configure deviceId password => Verified credentials w deviceId password ∧
      ¬ w.Managed deviceId ∧ ∃ site, GainsAt pattern w deviceId site ∧ LeavesBehind pattern site

/-- What a call on one device leaves, if `orphan` says whether it leaves an orphan. -/
structure Leaves (orphan : Prop) (w : World security ι) (deviceId : Bytes)
    (w' : World security ι) : Prop where
  otherAccounts : ∀ username, username ≠ deviceId → w'.client username = w.client username
  otherRows : ∀ username, username ≠ deviceId → w'.devices username = w.devices username
  orphaned : orphan → w'.Usable deviceId ∧ ¬ w'.Managed deviceId
  spared : ¬ orphan → w'.Usable deviceId → w'.Managed deviceId

theorem Leaves.noOrphan_iff {orphan : Prop} {w w' : World security ι} {deviceId : Bytes}
    (h : Leaves orphan w deviceId w') (hstart : w.NoOrphan) : w'.NoOrphan ↔ ¬ orphan := by
  constructor
  · intro hnone horphan
    obtain ⟨husable, hunmanaged⟩ := h.orphaned horphan
    exact hunmanaged (hnone deviceId husable)
  · intro hspared username husable
    by_cases hself : username = deviceId
    · subst hself
      exact h.spared hspared husable
    · -- the accounts and rows of other devices are as they were
      obtain ⟨client, hclient, husable⟩ := husable
      rw [h.otherAccounts username hself] at hclient
      obtain ⟨device, hdevice, hmanaged⟩ := hstart username ⟨client, hclient, husable⟩
      exact ⟨device, (h.otherRows username hself).trans hdevice, hmanaged⟩

/-- A call that has changed nothing. -/
theorem Leaves.of_unchanged {orphan : Prop} {w w' : World security ι} {deviceId : Bytes}
    (h : ¬ orphan) (hstart : w.NoOrphan) (hbroker : w'.broker = w.broker)
    (hdevices : w'.devices = w.devices) : Leaves orphan w deviceId w' where
  otherAccounts username _ := World.client_of_broker hbroker username
  otherRows username _ := by rw [hdevices]
  orphaned horphan := absurd horphan h
  spared _ husable := by
    obtain ⟨client, hclient, husable⟩ := husable
    rw [World.client_of_broker hbroker] at hclient
    obtain ⟨device, hdevice, hmanaged⟩ := hstart deviceId ⟨client, hclient, husable⟩
    exact ⟨device, hdevices ▸ hdevice, hmanaged⟩

/-- What the end of a transaction leaves that holds `row` and has not been rolled back by its
body. -/
structure Concluded (pattern : Site → Outcome) (w : World security ι) (deviceId : Bytes)
    (row : Option Device) (w' : World security ι) : Prop where
  broker : w'.broker = w.broker
  others : ∀ username, username ≠ deviceId → w'.devices username = w.devices username
  applied : pattern .commit ≠ .notApplied → w'.devices deviceId = row
  lost : pattern .commit = .notApplied → w'.devices deviceId = w.devices deviceId

theorem Concluded.client {w w' : World security ι} {deviceId : Bytes} {row : Option Device}
    (h : Concluded pattern w deviceId row w') (username : Bytes) :
    w'.client username = w.client username :=
  World.client_of_broker h.broker username

section Configured

variable {w w₁ w₂ : World security ι} {deviceId password : Bytes}

/-- The transaction is rolled back, or its commit takes no effect. -/
theorem configure_kept {managed : Except Failure Bool}
    (hverified : Verified credentials w deviceId password) (hstart : w.NoOrphan)
    (hprepares : Prepares pattern w deviceId managed w₁.broker) (hbroker : w₂.broker = w₁.broker)
    (hrows : w₂.devices = w.devices) (hbehind : ∀ site, pattern site ≠ .notApplied →
      GainsAt pattern w deviceId site → LeavesBehind pattern site) :
    Leaves (LeavesOrphan credentials pattern w (.configure deviceId password)) w deviceId w₂ := by
  have hclient (username : Bytes) :
      w₂.client username = (security.accounts w₁.broker).clients username := by
    rw [World.client, World.accounts, hbroker]
  refine ⟨fun username hne => (hclient username).trans (hprepares.others username hne),
    fun username _ => by rw [hrows], ?_, fun hspared husable => ?_⟩
  · rintro ⟨-, hunmanaged, site, hg, hleft⟩
    have happlied : pattern site ≠ .notApplied := by
      rcases hleft with h | h <;> simp [h]
    obtain ⟨client, hfound, husable⟩ := hprepares.gained site hg happlied
    refine ⟨⟨client, (hclient deviceId).trans hfound, husable⟩, ?_⟩
    rintro ⟨row, hrow, hmanaged⟩
    exact hunmanaged ⟨row, hrows ▸ hrow, hmanaged⟩
  · -- the rows are unchanged: a managed row covers the account, otherwise nothing made it usable
    by_cases hmanaged : w.Managed deviceId
    · obtain ⟨row, hrow, hmanaged⟩ := hmanaged
      exact ⟨row, hrows ▸ hrow, hmanaged⟩
    · have hunusable : ¬ w.Usable deviceId := fun husable => hmanaged (hstart deviceId husable)
      have hkept : ¬ (w.withBroker w₁.broker).Usable deviceId :=
        hprepares.kept hunusable fun site hg => by
          by_contra happlied
          exact hspared ⟨hverified, hmanaged, site, hg, hbehind site happlied hg⟩
      exact absurd husable (World.not_usable_of hkept (.inl (hclient deviceId)))

/-- The commit takes effect, so the row follows the account. -/
theorem configure_applied {device : Device} {managed : Bool}
    (hprepares : Prepares pattern w deviceId (.ok managed) w₁.broker)
    (hdevices : w₁.devices = w.devices)
    (hconcluded : Concluded pattern w₁ deviceId (some { device with mqttManaged := managed }) w₂)
    (happlied : pattern .commit ≠ .notApplied) :
    Leaves (LeavesOrphan credentials pattern w (.configure deviceId password)) w deviceId w₂ := by
  refine ⟨fun username hne => (hconcluded.client username).trans (hprepares.others username hne),
    fun username hne => ?_, ?_, fun _ husable => ?_⟩
  · rw [hconcluded.others username hne, hdevices]
  · rintro ⟨-, -, site, hg, hunconfirmed | ⟨-, hlost⟩⟩
    · -- a request left in doubt would have raised, and nothing was committed then
      obtain ⟨failure, hfailure⟩ := hprepares.raised site hg (by simp [hunconfirmed])
      simp at hfailure
    · exact absurd hlost happlied
  · cases managed with
    | true => exact ⟨_, hconcluded.applied happlied, rfl⟩
    | false =>
      exact absurd husable (World.not_usable_of (hprepares.unmanaged rfl)
        (.inl (hconcluded.client deviceId)))

end Configured

variable [DecidableEq ι] {i : ι}

/-! ## Transactions -/

@[simp] theorem rollback_broker (w : World security ι) (deviceId : Bytes) :
    (w.rollback i deviceId).broker = w.broker := by
  unfold World.rollback
  split
  · rfl
  · split <;> rfl

@[simp] theorem rollback_devices (w : World security ι) (deviceId : Bytes) :
    (w.rollback i deviceId).devices = w.devices := by
  unfold World.rollback
  split
  · rfl
  · split <;> rfl

section Transaction

variable {α : Type} {body : Management α} {w w' : World security ι} {deviceId : Bytes}

theorem transaction_error {failure : Failure}
    (h : body.run (perform pattern i) w = some (.error failure, w')) :
    (transaction deviceId body).run (perform pattern i) w =
      some (.error failure, w'.rollback i deviceId) := by
  rw [transaction, run_andThen_of h]
  rfl

theorem commit_concludes {row : Option Device} (hheld : w.held deviceId = some (i, row))
    (happlied : pattern .commit ≠ .notApplied) :
    Concluded pattern w deviceId row (w.commit i deviceId) := by
  have hcommit : w.commit i deviceId =
      ({ w with devices := Function.update w.devices deviceId row } : World security ι).release
        deviceId := by
    rw [World.commit, hheld]
    exact if_pos rfl
  rw [hcommit]
  exact ⟨rfl, fun username hne => Function.update_of_ne hne .., fun _ => Function.update_self ..,
    fun hlost => absurd hlost happlied⟩

theorem transaction_ok {a : α} {row : Option Device}
    (h : body.run (perform pattern i) w = some (.ok a, w'))
    (hheld : w'.held deviceId = some (i, row)) : ∃ w'',
    (transaction deviceId body).run (perform pattern i) w = some
      (.ok (a, if pattern .commit = .confirmed then .ok () else .error .commitFailed), w'') ∧
    Concluded pattern w' deviceId row w'' := by
  have hcommit : (request (Request.commit deviceId) : Management Unit).run (perform pattern i) w' =
      perform pattern i (.commit deviceId) w' := run_request _ w'
  rw [perform] at hcommit
  rw [transaction, run_andThen_of h]
  cases hsite : pattern .commit with
  | confirmed =>
    rw [hsite] at hcommit
    exact ⟨w'.commit i deviceId, run_andThen_of hcommit, commit_concludes hheld (by simp [hsite])⟩
  | notApplied =>
    rw [hsite] at hcommit
    -- the commit had no effect and the close rolls the pending row back
    refine ⟨w'.rollback i deviceId, run_andThen_of hcommit, rollback_broker _ _, ?_, ?_, ?_⟩
    · intro username _
      rw [rollback_devices]
    · intro happlied
      exact absurd hsite happlied
    · intro _
      rw [rollback_devices]
  | unconfirmed =>
    rw [hsite] at hcommit
    -- the commit took effect unseen: the rollback finds nothing pending and takes nothing back
    have hcommitted : Concluded pattern w' deviceId row (w'.commit i deviceId) :=
      commit_concludes hheld (by simp [hsite])
    refine ⟨(w'.commit i deviceId).rollback i deviceId, run_andThen_of hcommit,
      (rollback_broker _ _).trans hcommitted.broker, ?_, ?_, ?_⟩
    · intro username hne
      rw [rollback_devices, hcommitted.others username hne]
    · intro hnot
      rw [rollback_devices, hcommitted.applied hnot]
    · intro hlost
      simp [hsite] at hlost

end Transaction

/-! ## Registration -/

variable (credentials pattern i)

theorem registration_refused {w : World security ι} {r : DeviceRegistration}
    (salt : Bytes) (h : ¬ Registrable w r) (hidle : ∀ deviceId, w.held deviceId = none) :
    ∃ failure, (registration credentials salt r).run (perform pattern i) w =
      some (.error failure, w) := by
  have hlock : (Repository.lockRegistrationGateway r.gatewayId).run (perform pattern i) w =
      perform pattern i (.lockRegistrationGateway r.gatewayId) w := run_request _ w
  cases hgateway : w.gateways r.gatewayId with
  | none =>
    simp only [perform, hgateway] at hlock
    rcases notFound_cases Gateway r.gatewayId with hanswer | hanswer
    · rw [hanswer] at hlock
      exact ⟨.gatewayNotFound, run_bind_ok hlock⟩
    · rw [hanswer] at hlock
      exact ⟨.dataError, run_bind_error hlock⟩
  | some gateway =>
    simp only [perform, hgateway] at hlock
    rw [registration, run_bind_ok hlock]
    dsimp only
    rw [← Bool.not_and]
    by_cases henabled : (gateway.enabled && gateway.siteEnabled) = true
    · rw [if_neg (by simp [henabled])]
      by_cases hname : (strip r.name).isEmpty = true
      · rw [if_pos hname]
        exact ⟨.nameRequired, rfl⟩
      · rw [if_neg hname]
        let row : Device :=
          ⟨r.gatewayId, strip r.name, true, some (credentials.hashPassword salt r.password), false⟩
        have hinsert : (Repository.createDevice r.deviceId row).run (perform pattern i) w =
            perform pattern i (.createDevice r.deviceId row) w := run_request _ w
        by_cases hstorable : storable r.deviceId row = true
        · cases hdevice : w.devices r.deviceId with
          | none =>
            exact absurd ⟨⟨gateway, hgateway, henabled⟩, by simpa using hname,
              storable_iff.mp hstorable, hdevice⟩ h
          | some device =>
            -- the device exists, so the insertion violates its primary key
            simp only [perform, hstorable, if_true, hdevice, hidle] at hinsert
            exact ⟨.integrityError, run_bind_error hinsert⟩
        · rw [perform, if_neg hstorable] at hinsert
          exact ⟨.dataError, run_bind_error hinsert⟩
    · rw [if_pos (by simp [henabled])]
      exact ⟨.gatewayNotFound, rfl⟩

theorem registration_run {w : World security ι} {r : DeviceRegistration} (salt : Bytes)
    (h : Registrable w r) (hidle : ∀ deviceId, w.held deviceId = none) : ∃ w' result,
    (registration credentials salt r).run (perform pattern i) w = some (result, w') ∧
    w'.devices = w.devices ∧
    Creates pattern (CreationReached pattern w r.deviceId) w r.deviceId result w'.broker ∧
    ∀ created, result = .ok created → ∃ device : Device, device.mqttManaged = created ∧
      w'.held r.deviceId = some (i, some device) := by
  obtain ⟨gateway, hgateway, henabled⟩ := h.gateway
  have hlock : (Repository.lockRegistrationGateway r.gatewayId).run (perform pattern i) w =
      some (.ok (some gateway), w) := by
    refine (run_request (Request.lockRegistrationGateway r.gatewayId) w).trans ?_
    simp only [perform, hgateway]
  -- The row is pending with no managed account until the broker confirms one.
  let row : Device :=
    ⟨r.gatewayId, strip r.name, true, some (credentials.hashPassword salt r.password), false⟩
  have hinsert : (Repository.createDevice r.deviceId row).run (perform pattern i) w =
      some (.ok (), w.hold i r.deviceId (some row)) := by
    refine (run_request (Request.createDevice r.deviceId row) w).trans ?_
    rw [perform, if_pos (storable_iff.mpr h.noNul)]
    simp only [h.fresh, hidle]
  obtain ⟨b, result, hcreate, hcreates⟩ := BrokerAdmin.createDevice_run pattern i
    r.deviceId r.password (w.hold i r.deviceId (some row))
  have hcreates' : Creates pattern (CreationReached pattern w r.deviceId) w r.deviceId result b :=
    hcreates.after (creationReached_congr rfl rfl) (fun _ _ => rfl) (.inl rfl)
  rw [registration, run_bind_ok hlock]
  dsimp only
  rw [← Bool.not_and, if_neg (by simp [henabled]), if_neg (by simp [h.name]), run_bind_ok hinsert]
  cases result with
  | error failure =>
    exact ⟨(w.hold i r.deviceId (some row)).withBroker b, .error failure, run_bind_error hcreate,
      rfl, hcreates', by simp⟩
  | ok created =>
    have hset : (Repository.setManaged r.deviceId created).run (perform pattern i)
        ((w.hold i r.deviceId (some row)).withBroker b) = some (.ok (),
          ((w.hold i r.deviceId (some row)).withBroker b).hold i r.deviceId
            (some { row with mqttManaged := created })) := by
      refine (run_request (Request.setManaged r.deviceId created) _).trans ?_
      have hheld : ((w.hold i r.deviceId (some row)).withBroker b).held r.deviceId =
          some (i, some row) := Function.update_self ..
      simp only [perform, hheld]
    refine ⟨((w.hold i r.deviceId (some row)).withBroker b).hold i r.deviceId
      (some { row with mqttManaged := created }), .ok created, ?_, rfl, hcreates', ?_⟩
    · rw [run_bind_ok hcreate, run_bind_ok hset]
      rfl
    · rintro _ ⟨⟩
      exact ⟨{ row with mqttManaged := created }, rfl, Function.update_self ..⟩

/-- A handler that only logs: the command takes effect or not, and the call goes on. -/
theorem unlessUnavailable_run {p : Management Unit} {w w' : World security ι}
    {result : Except Failure Unit} (h : p.run (perform pattern i) w = some (result, w'))
    (hfailure : ∀ failure, result = .error failure → ∃ message,
      failure = .brokerUnavailable message) :
    (unlessUnavailable p).run (perform pattern i) w = some (.ok (), w') := by
  cases result with
  | ok _ => exact run_handled_ok h
  | error failure =>
    obtain ⟨message, rfl⟩ := hfailure failure rfl
    exact run_handled_error h

section Register

variable {credentials pattern i} {w w₁ : World security ι} {salt : Bytes} {r : DeviceRegistration}

/-- An unconfirmed creation raises before `broker_created` is set, so nothing compensates. -/
theorem registerDevice_raised {failure : Failure} (h : Registrable w r) (hstart : w.NoOrphan)
    (hbody : (registration credentials salt r).run (perform pattern i) w =
      some (.error failure, w₁)) (hdevices : w₁.devices = w.devices)
    (hcreates : Creates pattern (CreationReached pattern w r.deviceId) w r.deviceId
      (.error failure) w₁.broker) : ∃ w' result,
    (registerDevice credentials salt r).run (perform pattern i) w = some (result, w') ∧
    Leaves (LeavesOrphan credentials pattern w (.register salt r)) w r.deviceId w' := by
  have hrun : (registerDevice credentials salt r).run (perform pattern i) w =
      some (.error failure, w₁.rollback i r.deviceId) := run_bind_error (transaction_error hbody)
  -- The rollback takes the row back and leaves the broker as the body left it.
  have hclient (username : Bytes) : (w₁.rollback i r.deviceId).client username =
      (security.accounts w₁.broker).clients username := by
    rw [World.client, World.accounts, rollback_broker]
  refine ⟨_, _, hrun, ?_, ?_, ?_, ?_⟩
  · intro username hne
    exact (hclient username).trans (hcreates.others username hne)
  · intro username _
    rw [rollback_devices, hdevices]
  · rintro ⟨-, hreached, hbehind, -⟩
    have happlied : pattern .creation ≠ .notApplied := by
      rcases hbehind with h | h <;> simp [h]
    refine ⟨⟨createdClient, ?_, by decide⟩, ?_⟩
    · exact (hclient r.deviceId).trans (hcreates.created ⟨hreached, happlied⟩)
    · rintro ⟨device, hdevice, -⟩
      rw [rollback_devices, hdevices, h.fresh] at hdevice
      simp at hdevice
  · intro hspared husable
    refine absurd husable (World.not_usable_of (h.not_usable hstart) ?_)
    rw [hclient]
    refine hcreates.kept fun hcreated => hspared ⟨h, hcreated.1, ?_, ?_⟩
    · cases hsite : pattern .creation with
      | confirmed => exact absurd (hcreates.returned.mpr ⟨hcreated.1, hsite⟩) (by simp)
      | notApplied => exact absurd hsite hcreated.2
      | unconfirmed => exact .inl hsite
    · intro hsite
      exact absurd (hcreates.returned.mpr ⟨hcreated.1, hsite⟩) (by simp)

/-- Nothing was created, so nothing compensates either. -/
theorem registerDevice_uncreated (h : Registrable w r) (hstart : w.NoOrphan) {row : Option Device}
    (hbody : (registration credentials salt r).run (perform pattern i) w = some (.ok false, w₁))
    (hdevices : w₁.devices = w.devices) (hheld : w₁.held r.deviceId = some (i, row))
    (hcreates : Creates pattern (CreationReached pattern w r.deviceId) w r.deviceId (.ok false)
      w₁.broker) : ∃ w' result,
    (registerDevice credentials salt r).run (perform pattern i) w = some (result, w') ∧
    Leaves (LeavesOrphan credentials pattern w (.register salt r)) w r.deviceId w' := by
  obtain ⟨w₂, htransaction, hconcluded⟩ := transaction_ok hbody hheld
  -- Had the creation been reached, it would have been confirmed or raised.
  have hunreached : ¬ CreationReached pattern w r.deviceId := by
    intro hreached
    by_cases hsite : pattern .creation = .confirmed
    · exact absurd (hcreates.returned.mpr ⟨hreached, hsite⟩) (by simp)
    · obtain ⟨failure, hfailure⟩ := hcreates.raised hreached hsite
      simp at hfailure
  have hrun : ∃ result, (registerDevice credentials salt r).run (perform pattern i) w =
      some (result, w₂) := by
    rw [registerDevice, run_bind_ok htransaction]
    dsimp only
    split <;> exact ⟨_, rfl⟩
  obtain ⟨result, hrun⟩ := hrun
  refine ⟨w₂, result, hrun, ?_, ?_, fun horphan => absurd horphan.2.1 hunreached, ?_⟩
  · intro username hne
    exact (hconcluded.client username).trans (hcreates.others username hne)
  · intro username hne
    rw [hconcluded.others username hne, hdevices]
  · intro _ husable
    refine absurd husable (World.not_usable_of (h.not_usable hstart) ?_)
    rw [hconcluded.client]
    exact hcreates.kept fun hcreated => hunreached hcreated.1

theorem registerDevice_created (h : Registrable w r) {device : Device}
    (hbody : (registration credentials salt r).run (perform pattern i) w = some (.ok true, w₁))
    (hdevices : w₁.devices = w.devices) (hheld : w₁.held r.deviceId = some (i, some device))
    (hmanaged : device.mqttManaged = true)
    (hcreates : Creates pattern (CreationReached pattern w r.deviceId) w r.deviceId (.ok true)
      w₁.broker) : ∃ w' result,
    (registerDevice credentials salt r).run (perform pattern i) w = some (result, w') ∧
    Leaves (LeavesOrphan credentials pattern w (.register salt r)) w r.deviceId w' := by
  obtain ⟨w₂, htransaction, hconcluded⟩ := transaction_ok hbody hheld
  obtain ⟨hreached, hcreation⟩ := hcreates.returned.mp rfl
  have hcreated : w₂.client r.deviceId = some createdClient :=
    (hconcluded.client r.deviceId).trans (hcreates.created ⟨hreached, by simp [hcreation]⟩)
  have hotherAccounts (username : Bytes) (hne : username ≠ r.deviceId) :
      w₂.client username = w.client username :=
    (hconcluded.client username).trans (hcreates.others username hne)
  have hotherRows (username : Bytes) (hne : username ≠ r.deviceId) :
      w₂.devices username = w.devices username := by
    rw [hconcluded.others username hne, hdevices]
  by_cases hcommit : pattern .commit = .confirmed
  · rw [if_pos hcommit] at htransaction
    have hrun : (registerDevice credentials salt r).run (perform pattern i) w =
        some (.ok ⟨r.deviceId, r.gatewayId, strip r.name, true, false⟩, w₂) := by
      rw [registerDevice, run_bind_ok htransaction]
      rfl
    refine ⟨w₂, _, hrun, hotherAccounts, hotherRows, ?_, ?_⟩
    · rintro ⟨-, -, hbehind, -⟩
      simp [LeavesBehind, hcreation, hcommit] at hbehind
    · intro _ _
      exact ⟨device, hconcluded.applied (by simp [hcommit]), hmanaged⟩
  · rw [if_neg hcommit] at htransaction
    obtain ⟨b, hdelete, hdeleted⟩ :=
      BrokerAdmin.deleteDevice_run pattern i .compensatingDelete r.deviceId w₂
    have hcompensated := unlessUnavailable_run pattern i hdelete
      (by split <;> simp [notConfirmed])
    have hrun : (registerDevice credentials salt r).run (perform pattern i) w =
        some (.error .commitFailed, w₂.withBroker b) := by
      rw [registerDevice, run_bind_ok htransaction]
      exact run_bind_ok hcompensated
    refine ⟨w₂.withBroker b, _, hrun, ?_, hotherRows, ?_, ?_⟩
    · intro username hne
      exact (hdeleted.others username hne).trans (hotherAccounts username hne)
    · rintro ⟨-, -, hbehind, hcompensation⟩
      have hlost : pattern .commit = .notApplied := by
        simpa [LeavesBehind, hcreation] using hbehind
      refine ⟨⟨createdClient, ?_, by decide⟩, ?_⟩
      · exact (hdeleted.lost (hcompensation hcreation)).trans hcreated
      · rintro ⟨row, hrow, -⟩
        have hnone : w₂.devices r.deviceId = none := by
          rw [hconcluded.lost hlost, hdevices, h.fresh]
        exact absurd (hnone.symm.trans hrow) (by simp)
    · rintro hspared ⟨client, hfound, -⟩
      by_cases hlost : pattern .commit = .notApplied
      · -- the row is not there, so the compensation has to have taken effect
        have hcompensation : pattern .compensatingDelete ≠ .notApplied := fun hnot =>
          hspared ⟨h, hreached, .inr ⟨hcreation, hlost⟩, fun _ => hnot⟩
        exact absurd ((hdeleted.deleted hcompensation).symm.trans hfound) (by simp)
      · exact ⟨device, hconcluded.applied hlost, hmanaged⟩

end Register

theorem registerDevice_run (salt : Bytes) (r : DeviceRegistration) {w : World security ι}
    (hidle : ∀ deviceId, w.held deviceId = none) (hstart : w.NoOrphan) : ∃ w' result,
    (registerDevice credentials salt r).run (perform pattern i) w = some (result, w') ∧
    Leaves (LeavesOrphan credentials pattern w (.register salt r)) w r.deviceId w' := by
  by_cases hregistrable : Registrable w r
  · obtain ⟨w₁, result, hbody, hdevices, hcreates, hheld⟩ :=
      registration_run credentials pattern i salt hregistrable hidle
    cases result with
    | error failure => exact registerDevice_raised hregistrable hstart hbody hdevices hcreates
    | ok created =>
      obtain ⟨device, hdevice, hrow⟩ := hheld created rfl
      cases created with
      | false => exact registerDevice_uncreated hregistrable hstart hbody hdevices hrow hcreates
      | true => exact registerDevice_created hregistrable hbody hdevices hrow hdevice hcreates
  · obtain ⟨failure, hbody⟩ := registration_refused credentials pattern i salt hregistrable hidle
    have hrun : (registerDevice credentials salt r).run (perform pattern i) w =
        some (.error failure, w.rollback i r.deviceId) := run_bind_error (transaction_error hbody)
    exact ⟨_, _, hrun, Leaves.of_unchanged (fun h => hregistrable h.1) hstart
      (rollback_broker _ _) (rollback_devices _ _)⟩

/-! ## Removal -/

section Remove

variable {w : World security ι} {deviceId : Bytes}

/-- The broker is only asked about a managed device without history: otherwise the row is missing or
in use, or it goes without the broker. -/
theorem removal_spared (h : ¬ (w.Managed deviceId ∧ w.history deviceId = false))
    (hidle : ∀ deviceId, w.held deviceId = none) : ∃ w' result,
    (removal deviceId).run (perform pattern i) w = some (result, w') ∧
    w'.broker = w.broker ∧ w'.devices = w.devices ∧
    ((∃ failure, result = .error failure ∧
        (w.devices deviceId = none ∨ w.history deviceId = true)) ∨
      result = .ok false ∧ w'.held deviceId = some (i, none) ∧ ∃ device,
        w.devices deviceId = some device ∧ device.mqttManaged = false ∧
          w.history deviceId = false) := by
  have hlock : (Repository.lockDevice deviceId).run (perform pattern i) w =
      perform pattern i (.lockDevice deviceId) w := run_request _ w
  cases hdevice : w.devices deviceId with
  | none =>
    simp only [perform, hdevice] at hlock
    rcases notFound_cases Device deviceId with hanswer | hanswer
    · rw [hanswer] at hlock
      exact ⟨w, .error .deviceNotFound, run_bind_ok hlock, rfl, rfl, .inl ⟨_, rfl, .inl rfl⟩⟩
    · rw [hanswer] at hlock
      exact ⟨w, .error .dataError, run_bind_error hlock, rfl, rfl, .inl ⟨_, rfl, .inl rfl⟩⟩
  | some device =>
    simp only [perform, hdevice, hidle] at hlock
    have hdelete : (Repository.deleteDevice deviceId).run (perform pattern i)
        (w.hold i deviceId (some device)) =
        if w.history deviceId then some (.error .integrityError, w.hold i deviceId (some device))
        else some (.ok (), (w.hold i deviceId (some device)).hold i deviceId none) :=
      run_request (Request.deleteDevice deviceId) _
    rw [removal, run_bind_ok hlock]
    dsimp only
    cases hhistory : w.history deviceId with
    | true =>
      rw [hhistory, if_pos rfl] at hdelete
      exact ⟨_, .error .integrityError, run_bind_error hdelete, rfl, rfl,
        .inl ⟨_, rfl, .inr rfl⟩⟩
    | false =>
      rw [hhistory, if_neg (by simp)] at hdelete
      -- the row goes and the broker is not asked: the device was never managed
      have hunmanaged : ¬ device.mqttManaged = true := fun hmanaged =>
        h ⟨⟨device, hdevice, hmanaged⟩, hhistory⟩
      refine ⟨(w.hold i deviceId (some device)).hold i deviceId none, .ok false, ?_, rfl, rfl,
        .inr ⟨rfl, Function.update_self .., device, rfl, by simpa using hunmanaged, rfl⟩⟩
      rw [run_bind_ok hdelete, if_neg hunmanaged]
      rfl

theorem removal_effect (hmanaged : w.Managed deviceId) (hunused : w.history deviceId = false)
    (hidle : ∀ deviceId, w.held deviceId = none) : ∃ w' result,
    (removal deviceId).run (perform pattern i) w = some (result, w') ∧
    w'.devices = w.devices ∧ w'.held deviceId = some (i, none) ∧
    BrokerAdmin.DisableEffect pattern w deviceId result w'.broker := by
  obtain ⟨device, hdevice, hmanaged⟩ := hmanaged
  have hlock : (Repository.lockDevice deviceId).run (perform pattern i) w =
      some (.ok (some device), w.hold i deviceId (some device)) := by
    refine (run_request (Request.lockDevice deviceId) w).trans ?_
    simp only [perform, hdevice, hidle]
  have hdelete : (Repository.deleteDevice deviceId).run (perform pattern i)
      (w.hold i deviceId (some device)) =
        some (.ok (), (w.hold i deviceId (some device)).hold i deviceId none) := by
    refine (run_request (Request.deleteDevice deviceId) _).trans ?_
    have hhistory : (w.hold i deviceId (some device)).history deviceId = false := hunused
    simp [perform, hhistory]
  -- The row is deleted before the broker is asked, so the request sees it pending.
  obtain ⟨b, result, hdisable, heffect⟩ := BrokerAdmin.disableDevice_effect pattern i deviceId
    ((w.hold i deviceId (some device)).hold i deviceId none)
  refine ⟨((w.hold i deviceId (some device)).hold i deviceId none).withBroker b, result, ?_, rfl,
    ?_, heffect.congr rfl⟩
  · rw [removal, run_bind_ok hlock]
    dsimp only
    rw [run_bind_ok hdelete, if_pos hmanaged]
    exact hdisable
  · exact Function.update_self ..

theorem removeDevice_spared (h : ¬ (w.Managed deviceId ∧ w.history deviceId = false))
    (hidle : ∀ deviceId, w.held deviceId = none) (hstart : w.NoOrphan) : ∃ w' result,
    (removeDevice deviceId).run (perform pattern i) w = some (result, w') ∧
    Leaves (LeavesOrphan credentials pattern w (.remove deviceId)) w deviceId w' := by
  obtain ⟨w₁, result, hbody, hbroker, hdevices, hresult⟩ := removal_spared pattern i h hidle
  have hspared : ¬ LeavesOrphan credentials pattern w (.remove deviceId) :=
    fun horphan => h ⟨horphan.1, horphan.2.1⟩
  rcases hresult with ⟨failure, rfl, -⟩ | ⟨rfl, hheld, device, hdevice, hrow, -⟩
  · have hrun : (removeDevice deviceId).run (perform pattern i) w =
        some (.error failure, w₁.rollback i deviceId) := run_bind_error (transaction_error hbody)
    exact ⟨_, _, hrun, Leaves.of_unchanged hspared hstart
      ((rollback_broker _ _).trans hbroker) ((rollback_devices _ _).trans hdevices)⟩
  · -- the row is gone, and no account was usable beside an unmanaged row
    have hunmanaged : ¬ w.Managed deviceId := by
      rintro ⟨other, hother, hmanaged⟩
      obtain rfl := Option.some.inj (hdevice.symm.trans hother)
      simp [hrow] at hmanaged
    obtain ⟨w₂, htransaction, hconcluded⟩ := transaction_ok hbody hheld
    have hclient (username : Bytes) : w₂.client username = w.client username :=
      (hconcluded.client username).trans (World.client_of_broker hbroker username)
    have hrun : ∃ result, (removeDevice deviceId).run (perform pattern i) w =
        some (result, w₂) := by
      rw [removeDevice, run_bind_ok htransaction]
      dsimp only
      split <;> exact ⟨_, rfl⟩
    obtain ⟨result, hrun⟩ := hrun
    refine ⟨w₂, result, hrun, fun username _ => hclient username, fun username hne => ?_,
      fun horphan => absurd horphan hspared, fun _ husable => ?_⟩
    · rw [hconcluded.others username hne, hdevices]
    · have hunusable : ¬ w.Usable deviceId := fun husable => hunmanaged (hstart deviceId husable)
      exact absurd husable (World.not_usable_of hunusable (.inl (hclient deviceId)))

/-- The account is not known to be disabled: the transaction is rolled back, or there is no
account. -/
theorem removeDevice_undisabled {w₁ : World security ι} {result : Except Failure Bool}
    (hmanaged : w.Managed deviceId)
    (hbody : (removal deviceId).run (perform pattern i) w = some (result, w₁))
    (hdevices : w₁.devices = w.devices) (hheld : w₁.held deviceId = some (i, none))
    (hdisables : Disables pattern w deviceId result w₁.broker) (hresult : result ≠ .ok true) :
    ∃ w' result, (removeDevice deviceId).run (perform pattern i) w = some (result, w') ∧
    Leaves (LeavesOrphan credentials pattern w (.remove deviceId)) w deviceId w' := by
  have hspared : ¬ LeavesOrphan credentials pattern w (.remove deviceId) :=
    fun horphan => hresult (hdisables.returned.mpr horphan.2.2.1)
  rcases result with failure | disabled
  · have hrun : (removeDevice deviceId).run (perform pattern i) w =
        some (.error failure, w₁.rollback i deviceId) := run_bind_error (transaction_error hbody)
    refine ⟨_, _, hrun, fun username hne => ?_, fun username _ => ?_,
      fun horphan => absurd horphan hspared, fun _ _ => ?_⟩
    · rw [World.client, World.accounts, rollback_broker]
      exact hdisables.others username hne
    · rw [rollback_devices, hdevices]
    · obtain ⟨device, hdevice, hrole⟩ := hmanaged
      refine ⟨device, ?_, hrole⟩
      rw [rollback_devices, hdevices, hdevice]
  · -- the broker knows no such account, so none is left behind
    obtain rfl : disabled = false := by simpa using hresult
    obtain ⟨w₂, htransaction, hconcluded⟩ := transaction_ok hbody hheld
    have hrun : ∃ result, (removeDevice deviceId).run (perform pattern i) w =
        some (result, w₂) := by
      rw [removeDevice, run_bind_ok htransaction]
      dsimp only
      split <;> exact ⟨_, rfl⟩
    obtain ⟨result, hrun⟩ := hrun
    refine ⟨w₂, result, hrun, fun username hne => (hconcluded.client username).trans
      (hdisables.others username hne), fun username hne => ?_,
      fun horphan => absurd horphan hspared, fun _ husable => ?_⟩
    · rw [hconcluded.others username hne, hdevices]
    · obtain ⟨client, hfound, -⟩ := husable
      have hnone := (hconcluded.client deviceId).trans (hdisables.absent rfl)
      exact absurd (hnone.symm.trans hfound) (by simp)

/-- The commit is confirmed and the disabled account deleted, or it raises and the account is
enabled again. -/
theorem removeDevice_disabled {w₁ : World security ι} (hmanaged : w.Managed deviceId)
    (hunused : w.history deviceId = false)
    (hbody : (removal deviceId).run (perform pattern i) w = some (.ok true, w₁))
    (hdevices : w₁.devices = w.devices) (hheld : w₁.held deviceId = some (i, none))
    (hdisables : Disables pattern w deviceId (.ok true) w₁.broker) :
    ∃ w' result, (removeDevice deviceId).run (perform pattern i) w = some (result, w') ∧
    Leaves (LeavesOrphan credentials pattern w (.remove deviceId)) w deviceId w' := by
  obtain ⟨w₂, htransaction, hconcluded⟩ := transaction_ok hbody hheld
  obtain ⟨client, hrole, hdisabled⟩ := hdisables.disabled rfl
  have hclient : w₂.client deviceId = some { client with disabled := true } :=
    (hconcluded.client deviceId).trans hdisabled
  have hotherAccounts (username : Bytes) (hne : username ≠ deviceId) :
      w₂.client username = w.client username :=
    (hconcluded.client username).trans (hdisables.others username hne)
  have hotherRows (username : Bytes) (hne : username ≠ deviceId) :
      w₂.devices username = w.devices username := by
    rw [hconcluded.others username hne, hdevices]
  have hunusable : ¬ w₂.Usable deviceId := by
    rintro ⟨found, hfound, husable⟩
    obtain rfl := Option.some.inj (hclient.symm.trans hfound)
    simp [Client.isUsable] at husable
  by_cases hcommit : pattern .commit = .confirmed
  · rw [if_pos hcommit] at htransaction
    obtain ⟨b, hdelete, hdeleted⟩ := BrokerAdmin.deleteDevice_run pattern i .cleanup deviceId w₂
    have hcleaned := unlessUnavailable_run pattern i hdelete (by split <;> simp [notConfirmed])
    have hrun : (removeDevice deviceId).run (perform pattern i) w =
        some (.ok (), w₂.withBroker b) := by
      rw [removeDevice, run_bind_ok htransaction]
      exact hcleaned
    refine ⟨w₂.withBroker b, _, hrun, fun username hne => (hdeleted.others username hne).trans
      (hotherAccounts username hne), hotherRows, fun horphan => ?_, fun _ husable => ?_⟩
    · exact absurd horphan.2.2.2.1 (by simp [hcommit])
    · exact absurd husable (World.not_usable_of hunusable hdeleted.deleted_or_kept)
  · rw [if_neg hcommit] at htransaction
    obtain ⟨b, henable, henabled⟩ :=
      BrokerAdmin.enableDevice_run pattern i .compensatingEnable deviceId w₂
    rw [hclient, if_neg (Option.some_ne_none _)] at henable
    have hcompensated := unlessUnavailable_run pattern i henable (by split <;> simp [notConfirmed])
    have hrun : (removeDevice deviceId).run (perform pattern i) w =
        some (.error .commitFailed, w₂.withBroker b) := by
      rw [removeDevice, run_bind_ok htransaction]
      exact run_bind_ok hcompensated
    refine ⟨w₂.withBroker b, _, hrun, fun username hne => (henabled.others username hne).trans
      (hotherAccounts username hne), hotherRows, fun horphan => ⟨?_, ?_⟩, fun hspared husable => ?_⟩
    · have hfound := henabled.applied horphan.2.2.2.2
      rw [hclient] at hfound
      exact ⟨{ client with disabled := false }, hfound, Client.isUsable_enabled hrole⟩
    · rintro ⟨row, hrow, -⟩
      have hnone : w₂.devices deviceId = none :=
        hconcluded.applied (by simp [horphan.2.2.2.1])
      exact absurd (hnone.symm.trans hrow) (by simp)
    · by_cases hlost : pattern .commit = .notApplied
      · obtain ⟨row, hrow, hrowManaged⟩ := hmanaged
        refine ⟨row, ?_, hrowManaged⟩
        exact (hconcluded.lost hlost).trans (hdevices ▸ hrow)
      · -- the row is gone, so the compensation must not have taken effect
        have hsite : pattern .commit = .unconfirmed := by
          cases h : pattern .commit <;> simp_all
        have hnot : pattern .compensatingEnable = .notApplied := by
          by_contra happlied
          exact hspared ⟨hmanaged, hunused, hdisables.returned.mp rfl, hsite, happlied⟩
        exact absurd husable (World.not_usable_of hunusable (.inl (henabled.lost hnot)))

theorem removeDevice_run (deviceId : Bytes) (hidle : ∀ deviceId, w.held deviceId = none)
    (hstart : w.NoOrphan) : ∃ w' result,
    (removeDevice deviceId).run (perform pattern i) w = some (result, w') ∧
    Leaves (LeavesOrphan credentials pattern w (.remove deviceId)) w deviceId w' := by
  by_cases h : w.Managed deviceId ∧ w.history deviceId = false
  · obtain ⟨w₁, result, hbody, hdevices, hheld, heffect⟩ := removal_effect pattern i h.1 h.2 hidle
    have hdisables := heffect.disables
    by_cases hresult : result = .ok true
    · subst hresult
      exact removeDevice_disabled credentials pattern i h.1 h.2 hbody hdevices hheld hdisables
    · exact removeDevice_undisabled credentials pattern i h.1 hbody hdevices hheld hdisables hresult
  · exact removeDevice_spared credentials pattern i h hidle hstart

end Remove

/-! ## Later Set-Up -/

section Configure

variable {w : World security ι} {deviceId password : Bytes}

theorem configuration_refused (h : ¬ Verified credentials w deviceId password)
    (hidle : ∀ deviceId, w.held deviceId = none) : ∃ w' failure,
    (configuration credentials deviceId password).run (perform pattern i) w =
      some (.error failure, w') ∧ w'.broker = w.broker ∧ w'.devices = w.devices := by
  have hlock : (Repository.lockDevice deviceId).run (perform pattern i) w =
      perform pattern i (.lockDevice deviceId) w := run_request _ w
  cases hdevice : w.devices deviceId with
  | none =>
    simp only [perform, hdevice] at hlock
    rcases notFound_cases Device deviceId with hanswer | hanswer
    · rw [hanswer] at hlock
      exact ⟨w, .invalidDeviceCredentials, run_bind_ok hlock, rfl, rfl⟩
    · rw [hanswer] at hlock
      exact ⟨w, .dataError, run_bind_error hlock, rfl, rfl⟩
  | some device =>
    simp only [perform, hdevice, hidle] at hlock
    refine ⟨w.hold i deviceId (some device), .invalidDeviceCredentials, ?_, rfl, rfl⟩
    rw [configuration, run_bind_ok hlock]
    dsimp only
    rw [if_neg fun hverified => h ⟨device, hdevice, hverified⟩]
    rfl

theorem configuration_run {device : Device} (hdevice : w.devices deviceId = some device)
    (hverified : credentials.verifyPassword password device.passwordHash = true)
    (hidle : ∀ deviceId, w.held deviceId = none) : ∃ w' result managed,
    (configuration credentials deviceId password).run (perform pattern i) w = some (result, w') ∧
    w'.devices = w.devices ∧ Prepares pattern w deviceId managed w'.broker ∧
    (∀ failure, managed = .error failure → result = .error failure) ∧
    (∀ b, managed = .ok b → result = .ok () ∧
      w'.held deviceId = some (i, some { device with mqttManaged := b })) := by
  have hlock : (Repository.lockDevice deviceId).run (perform pattern i) w =
      some (.ok (some device), w.hold i deviceId (some device)) := by
    refine (run_request (Request.lockDevice deviceId) w).trans ?_
    simp only [perform, hdevice, hidle]
  obtain ⟨b, managed, hensure, hprepares⟩ := BrokerAdmin.ensureDevice_run pattern i deviceId
    password (w.hold i deviceId (some device))
  have hprepares' : Prepares pattern w deviceId managed b := hprepares.congr rfl rfl
  rw [configuration, run_bind_ok hlock]
  dsimp only
  rw [if_pos hverified]
  -- the flag is written only after the broker has answered
  cases managed with
  | error failure =>
    exact ⟨_, .error failure, .error failure, run_bind_error hensure, rfl, hprepares',
      fun _ h => by simpa using h, by simp⟩
  | ok managed =>
    have hset : (Repository.setManaged deviceId managed).run (perform pattern i)
        ((w.hold i deviceId (some device)).withBroker b) = some (.ok (),
          ((w.hold i deviceId (some device)).withBroker b).hold i deviceId
            (some { device with mqttManaged := managed })) := by
      refine (run_request (Request.setManaged deviceId managed) _).trans ?_
      have hheld : ((w.hold i deviceId (some device)).withBroker b).held deviceId =
          some (i, some device) := Function.update_self ..
      simp only [perform, hheld]
    refine ⟨((w.hold i deviceId (some device)).withBroker b).hold i deviceId
      (some { device with mqttManaged := managed }), .ok (), .ok managed, ?_, rfl, hprepares',
      by simp, ?_⟩
    · rw [run_bind_ok hensure]
      exact hset
    · rintro _ ⟨⟩
      exact ⟨rfl, Function.update_self ..⟩

theorem configureExistingMqtt_run (deviceId password : Bytes)
    (hidle : ∀ deviceId, w.held deviceId = none) (hstart : w.NoOrphan) : ∃ w' result,
    (configureExistingMqtt credentials deviceId password).run (perform pattern i) w =
      some (result, w') ∧
    Leaves (LeavesOrphan credentials pattern w (.configure deviceId password)) w deviceId w' := by
  by_cases hverified : Verified credentials w deviceId password
  · obtain ⟨device, hdevice, hpassword⟩ := hverified
    obtain ⟨w₁, result, managed, hbody, hdevices, hprepares, hfailed, hset⟩ :=
      configuration_run credentials pattern i hdevice hpassword hidle
    cases managed with
    | error failure =>
      obtain rfl := hfailed failure rfl
      have hrun : (configureExistingMqtt credentials deviceId password).run (perform pattern i) w =
          some (.error failure, w₁.rollback i deviceId) := run_bind_error (transaction_error hbody)
      refine ⟨_, _, hrun, configure_kept ⟨device, hdevice, hpassword⟩ hstart hprepares
        (rollback_broker _ _) ((rollback_devices _ _).trans hdevices) fun site happlied hg => ?_⟩
      cases hsite : pattern site with
      | confirmed => exact absurd (hprepares.returned site hg hsite) (by simp)
      | notApplied => exact absurd hsite happlied
      | unconfirmed => exact .inl hsite
    | ok managed =>
      obtain ⟨rfl, hheld⟩ := hset managed rfl
      obtain ⟨w₂, htransaction, hconcluded⟩ := transaction_ok hbody hheld
      refine ⟨w₂, _, run_bind_ok htransaction, ?_⟩
      by_cases hlost : pattern .commit = .notApplied
      · -- the commit was lost: no row differs, and what the broker was told stays
        have hrows : w₂.devices = w.devices := by
          funext username
          by_cases hself : username = deviceId
          · rw [hself, hconcluded.lost hlost, hdevices]
          · rw [hconcluded.others username hself, hdevices]
        refine configure_kept ⟨device, hdevice, hpassword⟩ hstart hprepares hconcluded.broker hrows
          fun site happlied hg => .inr ⟨?_, hlost⟩
        by_contra hsite
        obtain ⟨failure, hfailure⟩ := hprepares.raised site hg hsite
        simp at hfailure
      · exact configure_applied hprepares hdevices hconcluded hlost
  · obtain ⟨w₁, failure, hbody, hbroker, hdevices⟩ :=
      configuration_refused credentials pattern i hverified hidle
    have hrun : (configureExistingMqtt credentials deviceId password).run (perform pattern i) w =
        some (.error failure, w₁.rollback i deviceId) := run_bind_error (transaction_error hbody)
    exact ⟨_, _, hrun, Leaves.of_unchanged (fun h => hverified h.1) hstart
      ((rollback_broker _ _).trans hbroker) ((rollback_devices _ _).trans hdevices)⟩

end Configure

/-! ## All Calls -/

/-- With the broker reachable, no registration of a new device is refused because of an account
that a device could use. -/
def World.Accepting (credentials : Credentials) (i : ι) (w : World security ι) : Prop :=
  ∀ salt r message w', w.devices r.deviceId = none →
    (registerDevice credentials salt r).run (perform (fun _ => .confirmed) i) w =
      some (.error (.brokerConflict message), w') → ¬ w.Usable r.deviceId

theorem NoOrphan.accepting {w : World security ι} (h : w.NoOrphan) : w.Accepting credentials i := by
  intro _ r _ _ hfresh _ husable
  obtain ⟨device, hdevice, -⟩ := h r.deviceId husable
  simp [hfresh] at hdevice

theorem program_run (call : Call) {w : World security ι}
    (hidle : ∀ deviceId, w.held deviceId = none) (hstart : w.NoOrphan) : ∃ w' result,
    (call.program credentials).run (perform pattern i) w = some (result, w') ∧
    Leaves (LeavesOrphan credentials pattern w call) w call.deviceId w' := by
  cases call with
  | register salt r =>
    obtain ⟨w', result, hrun, hleaves⟩ :=
      registerDevice_run credentials pattern i salt r hidle hstart
    cases result with
    | ok status => exact ⟨w', _, run_bind_ok hrun, hleaves⟩
    | error failure => exact ⟨w', _, run_bind_error hrun, hleaves⟩
  | remove deviceId =>
    obtain ⟨w', result, hrun, hleaves⟩ :=
      removeDevice_run credentials pattern i deviceId hidle hstart
    cases result with
    | ok _ => exact ⟨w', _, run_bind_ok hrun, hleaves⟩
    | error failure => exact ⟨w', _, run_bind_error hrun, hleaves⟩
  | configure deviceId password =>
    obtain ⟨w', result, hrun, hleaves⟩ :=
      configureExistingMqtt_run credentials pattern i deviceId password hidle hstart
    cases result with
    | ok _ => exact ⟨w', _, run_bind_ok hrun, hleaves⟩
    | error failure => exact ⟨w', _, run_bind_error hrun, hleaves⟩

/-- A call leaves no account that a device could use and that no managed row has, exactly where
`LeavesOrphan` does not hold; and then no later registration meets one. -/
theorem no_orphan_left_iff (security : DynamicSecurity) (credentials : Credentials)
    (pattern : Site → Outcome) (i : ι) (call : Call) (w : World security ι)
    (hidle : ∀ deviceId, w.held deviceId = none) (hstart : w.NoOrphan) : ∃ w' result,
    (call.program credentials).run (perform pattern i) w = some (result, w') ∧
    (w'.NoOrphan ∧ w'.Accepting credentials i ↔ ¬ LeavesOrphan credentials pattern w call) := by
  obtain ⟨w', result, hrun, hleaves⟩ := program_run credentials pattern i call hidle hstart
  refine ⟨w', result, hrun, ?_⟩
  rw [← hleaves.noOrphan_iff hstart]
  exact ⟨fun h => h.1, fun h => ⟨h, NoOrphan.accepting credentials i h⟩⟩

/-! ## An Orphan -/

def sampleRegistration : DeviceRegistration :=
  ⟨ascii "esp32-1", ascii "gateway-1", ascii "Pump", ascii "long-password"⟩

/-- One gateway, no device, and no account but the role. -/
def sampleWorld : World .plain Unit where
  gateways gatewayId := if gatewayId = ascii "gateway-1" then some ⟨true, true⟩ else none
  devices _ := none
  held _ := none
  history _ := false
  legacyFile := []
  broker := ⟨fun _ => none, fun role => decide (role = deviceRole)⟩

theorem sampleWorld_noOrphan : sampleWorld.NoOrphan := by
  rintro deviceId ⟨client, hclient, -⟩
  exact absurd hclient (by simp [World.client, World.accounts, sampleWorld, DynamicSecurity.plain])

theorem no_orphan_left_sample : ∃ w' result,
    ((Call.register [] sampleRegistration).program .plain).run
      (perform (fun _ => .confirmed) ()) sampleWorld = some (result, w') ∧
    (w'.NoOrphan ∧ w'.Accepting .plain () ↔
      ¬ LeavesOrphan .plain (fun _ => .confirmed) sampleWorld
        (.register [] sampleRegistration)) :=
  no_orphan_left_iff .plain .plain (fun _ => .confirmed) () (.register [] sampleRegistration)
    sampleWorld (fun _ => rfl) sampleWorld_noOrphan

/-- The creation takes effect and is not confirmed. -/
def creationUnconfirmed (site : Site) : Outcome :=
  if site = .creation then .unconfirmed else .confirmed

theorem orphan_left : sampleWorld.NoOrphan ∧ ∃ w' w'',
    (registerDevice .plain [] sampleRegistration).run
      (perform creationUnconfirmed ()) sampleWorld = some (.error notConfirmed, w') ∧
    w'.Usable sampleRegistration.deviceId ∧ ¬ w'.Managed sampleRegistration.deviceId ∧
    (registerDevice .plain [] sampleRegistration).run
      (perform (fun _ => .confirmed) ()) w' = some
        (.error (.brokerConflict "An MQTT account already uses this Device ID"), w'') := by
  refine ⟨sampleWorld_noOrphan, _, _, rfl, ?_, ?_, rfl⟩
  · exact ⟨createdClient, rfl, rfl⟩
  · rintro ⟨device, hdevice, -⟩
    cases hdevice

end EquipmentMonitoring.Devices
