import EquipmentMonitoring.Backend.BrokerAdmin

/-!
# Registry and Broker under Concurrent Calls

Any number of management calls on one device, their steps in any order, every command and commit
confirmed. The row lock keeps the bodies of the transactions apart, but the command that a removal
sends after its commit runs beside them.

## Key Results

- `Relies`, `Guarantees`: what a call may expect of the others, and what it keeps to
- `transaction_ensures`: a transaction that ends with the row and the account in agreement
- `agrees_when_ended`: registry and broker agree when all calls have returned, if no removal's last
  command meets a usable account
-/

namespace EquipmentMonitoring.Devices

open Program

variable {security : DynamicSecurity} {ι : Type}

/-! ## Runs -/

/-- A step of call `i`. A statement that has waited for a row which is gone then finds none, even
if there is another one by now. -/
inductive Takes [DecidableEq ι] (i : ι) :
    (r : Request) → World security ι → Except Failure r.Result → World security ι → Prop where
  | performed {r : Request} {w w' : World security ι} {answer : Except Failure r.Result}
      (h : perform (fun _ => .confirmed) i r w = some (answer, w')) : Takes i r w answer w'
  | missed {deviceId : Bytes} {w : World security ι} : Takes i (.lockDevice deviceId) w (.ok none) w

/-- What a removal sends after its commit does not meet a usable account. -/
def CleanupMeetsNone (r : Request) (w : World security ι) : Prop :=
  ∀ deviceId, r = .broker .cleanup (.deleteClient deviceId) → ¬ w.Usable deviceId

/-- A step that meets the condition. -/
def TakesSafely [DecidableEq ι] (i : ι) (r : Request) (w : World security ι)
    (answer : Except Failure r.Result) (w' : World security ι) : Prop :=
  Takes i r w answer w' ∧ CleanupMeetsNone r w

/-- A managed row exists exactly when there is a usable account. -/
def World.Agrees (w : World security ι) (deviceId : Bytes) : Prop :=
  w.Managed deviceId ↔ w.Usable deviceId

/-! ## What Calls Do to Each Other -/

/-- The account is the same, or it is gone and was of no use. -/
def Fades (client client' : Option Client) : Prop :=
  client' = client ∨ client' = none ∧ ∀ c, client = some c → c.isUsable = false

theorem Fades.trans {a b c : Option Client} (hab : Fades a b) (hbc : Fades b c) : Fades a c := by
  rcases hab with rfl | ⟨rfl, hunusable⟩
  · exact hbc
  · rcases hbc with rfl | ⟨rfl, -⟩ <;> exact .inr ⟨rfl, hunusable⟩

theorem Fades.usable_iff {w w' : World security ι} {deviceId : Bytes}
    (h : Fades (w.client deviceId) (w'.client deviceId)) :
    w'.Usable deviceId ↔ w.Usable deviceId := by
  rcases h with hsame | ⟨hnone, hunusable⟩
  · simp only [World.Usable, hsame]
  · constructor
    · rintro ⟨client, hfound, -⟩
      simp [hnone] at hfound
    · rintro ⟨client, hfound, husable⟩
      simp [hunusable client hfound] at husable

/-- While no transaction holds the row, registry and broker agree. -/
def Settled (deviceId : Bytes) (w : World security ι) : Prop :=
  w.held deviceId = none → w.Agrees deviceId

/-- What call `j` may expect of the steps of others: while it holds the row, they do no more than
let a useless account go. -/
structure Relies (deviceId : Bytes) (j : ι) (w w' : World security ι) : Prop where
  settled : Settled deviceId w → Settled deviceId w'
  held : ∀ row, w.held deviceId = some (j, row) → w'.held deviceId = some (j, row)
  devices : ∀ row, w.held deviceId = some (j, row) → w'.devices deviceId = w.devices deviceId
  client : ∀ row, w.held deviceId = some (j, row) →
    Fades (w.client deviceId) (w'.client deviceId)
  free : (∀ row, w.held deviceId ≠ some (j, row)) → ∀ row, w'.held deviceId ≠ some (j, row)

theorem Relies.refl (deviceId : Bytes) (j : ι) (w : World security ι) : Relies deviceId j w w :=
  ⟨id, fun _ => id, fun _ _ => rfl, fun _ _ => .inl rfl, id⟩

theorem Relies.trans {deviceId : Bytes} {j : ι} {w₁ w₂ w₃ : World security ι}
    (h : Relies deviceId j w₁ w₂) (h' : Relies deviceId j w₂ w₃) : Relies deviceId j w₁ w₃ where
  settled hs := h'.settled (h.settled hs)
  held row hheld := h'.held row (h.held row hheld)
  devices row hheld := (h'.devices row (h.held row hheld)).trans (h.devices row hheld)
  client row hheld := (h.client row hheld).trans (h'.client row (h.held row hheld))
  free hfree := h'.free (h.free hfree)

/-- What call `i` keeps to. -/
structure Guarantees (deviceId : Bytes) (i : ι) (w w' : World security ι) : Prop where
  settled : Settled deviceId w → Settled deviceId w'
  relied : ∀ j, i ≠ j → Relies deviceId j w w'

def discipline (security : DynamicSecurity) (ι : Type) (deviceId : Bytes) :
    RelyGuarantee ι (World security ι) where
  rely := Relies deviceId
  guarantee := Guarantees deviceId
  keeps := Settled deviceId
  rely_refl := Relies.refl deviceId
  rely_trans _ _ _ _ := Relies.trans
  covered _ j hne _ _ _ h := h.relied j hne
  keeping _ _ _ hs h := h.settled hs

section Guarantees

variable {deviceId : Bytes} {i : ι} {w w' : World security ι}

/-- The holder of the row may write the row and change the account. -/
theorem Guarantees.of_held {row row' : Option Device} (h : w.held deviceId = some (i, row))
    (h' : w'.held deviceId = some (i, row')) : Guarantees deviceId i w w' where
  settled _ hfree := by simp [h'] at hfree
  relied j hne := by
    refine ⟨fun _ hfree => by simp [h'] at hfree, fun row hheld => ?_, fun row hheld => ?_,
      fun row hheld => ?_, fun _ row hheld => ?_⟩
    all_goals simp_all

/-- A row that nobody holds can be taken. -/
theorem Guarantees.of_taken {row : Option Device} (h : w.held deviceId = none)
    (h' : w'.held deviceId = some (i, row)) : Guarantees deviceId i w w' where
  settled _ hfree := by simp [h'] at hfree
  relied j hne := by
    refine ⟨fun _ hfree => by simp [h'] at hfree, fun row hheld => ?_, fun row hheld => ?_,
      fun row hheld => ?_, fun _ row hheld => ?_⟩
    all_goals simp_all

/-- The row is released in agreement with the account. -/
theorem Guarantees.of_released {row : Option Device} (h : w.held deviceId = some (i, row))
    (h' : w'.held deviceId = none) (hagrees : w'.Agrees deviceId) : Guarantees deviceId i w w' where
  settled _ _ := hagrees
  relied j hne := by
    refine ⟨fun _ _ => hagrees, fun row hheld => ?_, fun row hheld => ?_, fun row hheld => ?_,
      fun _ row hheld => ?_⟩
    all_goals simp_all

/-- A step beside the transactions may let a useless account go. -/
theorem Guarantees.of_fades (hheld : w'.held deviceId = w.held deviceId)
    (hdevices : w'.devices deviceId = w.devices deviceId)
    (hclient : Fades (w.client deviceId) (w'.client deviceId)) : Guarantees deviceId i w w' := by
  -- An account that fades was not usable before, nor is it after.
  have hsettled : Settled deviceId w → Settled deviceId w' := by
    intro hs hfree
    have hmanaged : w'.Managed deviceId ↔ w.Managed deviceId := by
      simp only [World.Managed, hdevices]
    rw [World.Agrees, hmanaged, hclient.usable_iff]
    exact hs (hheld ▸ hfree)
  refine ⟨hsettled, fun j _ => ⟨hsettled, fun row h => ?_, fun _ _ => hdevices, fun _ _ => hclient,
    fun hfree row h => ?_⟩⟩
  · rw [hheld, h]
  · exact hfree row (hheld ▸ h)

theorem Guarantees.refl : Guarantees deviceId i w w := .of_fades rfl rfl (.inl rfl)

end Guarantees

/-! ## The Holder of the Row -/

/-- Call `i` holds the row and will leave it as `row`; `device` is committed, and `usable` says
whether there is a usable account. -/
structure Owner (deviceId : Bytes) (i : ι) (row device : Option Device) (usable : Prop)
    (w : World security ι) : Prop where
  held : w.held deviceId = some (i, row)
  devices : w.devices deviceId = device
  usable : w.Usable deviceId ↔ usable

section Owner

variable {deviceId : Bytes} {i : ι} {row device : Option Device} {usable : Prop}
  {w w' : World security ι}

theorem Owner.relies (h : Owner deviceId i row device usable w) (hrely : Relies deviceId i w w') :
    Owner deviceId i row device usable w' where
  held := hrely.held row h.held
  devices := (hrely.devices row h.held).trans h.devices
  usable := (hrely.client row h.held).usable_iff.trans h.usable

/-- The holder's commands leave the registry alone. -/
theorem Owner.send (h : Owner deviceId i row device usable w) (command : Command) {usable' : Prop}
    (husable : (w.send command).Usable deviceId ↔ usable') :
    Owner deviceId i row device usable' (w.send command) := ⟨h.held, h.devices, husable⟩

theorem usable_congr (h : w'.client deviceId = w.client deviceId) :
    w'.Usable deviceId ↔ w.Usable deviceId := Fades.usable_iff (.inl h)

theorem release_held : (w.release deviceId).held deviceId = none := Function.update_self ..

/-- An account that is still there is the same. -/
theorem Relies.client_eq {client client' : Client} (h : Relies deviceId i w w')
    (hheld : w.held deviceId = some (i, row)) (hclient : w.client deviceId = some client)
    (hclient' : w'.client deviceId = some client') : client = client' := by
  rcases h.client row hheld with hsame | ⟨hnone, -⟩
  · rw [hsame, hclient] at hclient'
    exact Option.some.inj hclient'
  · simp [hnone] at hclient'

/-- An account is changed, or there is none to change. -/
theorem change_cases {command : Command} {f : Client → Option Client} (w : World security ι)
    (hcommand : ∀ accounts : Accounts, accounts.documented command = accounts.change deviceId f) :
    (w.client deviceId = none ∧ (w.accounts.documented command).1 = .refused clientNotFound ∧
      (w.send command).client deviceId = none) ∨
    ∃ client, w.client deviceId = some client ∧ (w.accounts.documented command).1 = .confirmed ∧
      (w.send command).client deviceId = f client := by
  have hsent : (w.send command).client deviceId = (w.client deviceId).bind f := by
    rw [World.client, World.accounts_send, hcommand, Accounts.change_clients]
    rfl
  rw [hcommand, Accounts.change_answer, hsent, World.client]
  cases w.accounts.clients deviceId with
  | none => exact .inl ⟨rfl, rfl, rfl⟩
  | some client => exact .inr ⟨client, rfl, rfl, rfl⟩

theorem not_usable_of_none (h : w.client deviceId = none) : ¬ w.Usable deviceId := by
  rintro ⟨client, hfound, -⟩
  simp [h] at hfound

/-- An account is created, or the broker refuses and nothing changes. -/
theorem createClient_cases (deviceId password : Bytes) (w : World security ι) :
    let command := Command.createClient deviceId password [⟨deviceRole, 1⟩]
    ((w.accounts.documented command).1 = .confirmed ∧
      (w.send command).client deviceId = some createdClient) ∨
    ∃ error, (w.accounts.documented command).1 = .refused error ∧
      (w.send command).client deviceId = w.client deviceId := by
  intro command
  rw [World.client, World.accounts_send, World.client]
  simp only [command, Accounts.documented]
  cases hclient : w.accounts.clients deviceId with
  | some client => exact .inr ⟨clientAlreadyExists, rfl, hclient⟩
  | none =>
    by_cases hrole : w.accounts.roles deviceRole = true
    · left
      simp [hrole, createdClient]
    · right
      simp [hrole, hclient]

end Owner

variable [DecidableEq ι]

/-- What a program ensures among the other calls on the device, in steps that meet the condition. -/
def Holds {α : Type} (deviceId : Bytes) (i : ι) (p : Management α)
    (post : Except Failure α → World security ι → Prop) (w : World security ι) : Prop :=
  p.Ensures (Relies deviceId i) (Guarantees deviceId i) (TakesSafely i) post w

section Requests

variable {deviceId : Bytes} {i : ι} {row device : Option Device} {usable : Prop}
  {w : World security ι}

namespace BrokerAdmin

/-- A command of the holder is handled as documented, whatever came before it. -/
theorem one_holds {site : Site} {command : Command}
    {post : Except Failure Answer → World security ι → Prop}
    (h : Owner deviceId i row device usable w)
    (hpost : ∀ w', Relies deviceId i w w' → Owner deviceId i row device usable w' →
      post (.ok (w'.accounts.documented command).1) (w'.send command)) :
    Holds deviceId i (one site command) post w := by
  intro w' hrely answer w'' hstep
  have howner := h.relies hrely
  cases hstep.1 with
  | performed hperform =>
    simp only [perform, Option.some.injEq, Prod.mk.injEq] at hperform
    obtain ⟨rfl, rfl⟩ := hperform
    rw [w'.handle_answer]
    exact ⟨.of_held howner.held howner.held, hpost w' hrely howner⟩

theorem getClient_holds {site : Site} {post : Except Failure (Option Client) → World security ι → Prop}
    (h : Owner deviceId i row device usable w)
    (hpost : ∀ w', Owner deviceId i row device usable w' → post (.ok (w'.client deviceId)) w') :
    Holds deviceId i (getClient site deviceId) post w := by
  refine ensures_bind (one_holds h fun w' _ howner => ?_)
  -- A lookup is a command like any other, but changes nothing at the broker.
  have hsame : (w'.send (.getClient deviceId)).accounts = w'.accounts := by
    rw [World.accounts_send, Accounts.documented_getClient]
  have hclient : (w'.send (.getClient deviceId)).client deviceId = w'.client deviceId := by
    rw [World.client, hsame]
    rfl
  have hpost' := hpost _ (howner.send (.getClient deviceId)
    ((usable_congr hclient).trans howner.usable))
  rw [hclient] at hpost'
  rw [Accounts.documented_getClient, ifOk_ok]
  simp only [World.client] at hpost' ⊢
  cases hfound : w'.accounts.clients deviceId with
  | none =>
    rw [hfound] at hpost'
    simpa using hpost'
  | some client =>
    rw [hfound] at hpost'
    simpa using hpost'

/-- The roles are no account. -/
theorem ensureRole_holds (h : Owner deviceId i row device usable w) :
    Holds deviceId i ensureRole (fun _ => Owner deviceId i row device usable) w := by
  refine ensures_bind (one_holds h fun w' _ howner => ?_)
  have hlookup : Owner deviceId i row device usable (w'.send (.getRole deviceRole)) := by
    refine howner.send _ ((usable_congr ?_).trans howner.usable)
    rw [World.client, World.accounts_send]
    rfl
  rw [ifOk_ok]
  split
  · exact hlookup
  · split
    · exact hlookup
    · refine ensures_bind (one_holds hlookup fun w'' _ howner' => ?_)
      have hcreated : Owner deviceId i row device usable (w''.send (.createRole deviceRole
          [⟨ascii "publishClientSend", deviceAcl, 1, true⟩])) := by
        refine howner'.send _ ((usable_congr ?_).trans howner'.usable)
        rw [World.client, World.accounts_send, Accounts.documented]
        split <;> rfl
      rw [ifOk_ok]
      split <;> exact hcreated

theorem legacyAccountExists_holds (h : Owner deviceId i row device usable w) (username : Bytes) :
    Holds deviceId i (legacyAccountExists username)
      (fun _ => Owner deviceId i row device usable) w := by
  refine ensures_bind fun w' hrely answer w'' hstep => ?_
  have howner := h.relies hrely
  cases hstep.1 with
  | performed hperform =>
    simp only [perform, Option.some.injEq, Prod.mk.injEq] at hperform
    obtain ⟨rfl, rfl⟩ := hperform
    refine ⟨.refl, ?_⟩
    simp only [Program.Ensures, ifOk_ok]
    split <;> exact howner

theorem verifyLogin_holds (h : Owner deviceId i row device usable w) (username password : Bytes) :
    Holds deviceId i (verifyLogin username password)
      (fun _ => Owner deviceId i row device usable) w := by
  intro w' hrely answer w'' hstep
  have howner := h.relies hrely
  cases hstep.1 with
  | performed hperform =>
    simp only [perform, Option.some.injEq, Prod.mk.injEq] at hperform
    obtain ⟨rfl, rfl⟩ := hperform
    exact ⟨.refl, howner⟩

/-- The account is usable exactly if the code knows that it has created it. -/
theorem createAccount_holds (h : Owner deviceId i row device False w) (password : Bytes) :
    Holds deviceId i (createAccount deviceId password)
      (fun result => Owner deviceId i row device (result = .ok true)) w := by
  refine ensures_bind (ensures_mono (legacyAccountExists_holds h deviceId) fun listed w' h' => ?_)
  rcases listed with failure | listed
  · exact ⟨h'.held, h'.devices, by simp [h'.usable]⟩
  · rw [ifOk_ok]
    cases listed with
    | true =>
      refine ensures_bind (ensures_mono (verifyLogin_holds h' deviceId password)
        fun accepted w'' h'' => ?_)
      rcases accepted with failure | accepted
      · exact ⟨h''.held, h''.devices, by simp [h''.usable]⟩
      · rw [ifOk_ok]
        cases accepted <;> exact ⟨h''.held, h''.devices, by simp [h''.usable]⟩
    | false =>
      refine ensures_bind (ensures_mono (ensureRole_holds h') fun ensured w'' h'' => ?_)
      rcases ensured with failure | _
      · exact ⟨h''.held, h''.devices, by simp [h''.usable]⟩
      · rw [ifOk_ok]
        refine ensures_bind (one_holds h'' fun w₁ _ h₁ => ?_)
        rw [ifOk_ok]
        -- the broker answers what it did: only a confirmed creation made an account
        rcases createClient_cases deviceId password w₁ with ⟨hanswer, hclient⟩ | ⟨error, hanswer, hclient⟩
        · have hcreated : Owner deviceId i row device ((.ok true : Except Failure Bool) = .ok true)
              (w₁.send (.createClient deviceId password [⟨deviceRole, 1⟩])) :=
            h₁.send _ ⟨fun _ => rfl, fun _ => ⟨createdClient, hclient, by decide⟩⟩
          rw [hanswer]
          simpa [Answer.confirmed] using hcreated
        · have hkept : Owner deviceId i row device False
              (w₁.send (.createClient deviceId password [⟨deviceRole, 1⟩])) :=
            h₁.send _ ((usable_congr hclient).trans h₁.usable)
          rw [hanswer]
          by_cases herror : error = clientAlreadyExists
          · simpa [Answer.refused, herror] using hkept
          · simpa [Answer.refused, herror] using hkept

/-- Whatever is there before, the account is usable afterwards only if it has been created. -/
theorem createDevice_holds (h : Owner deviceId i row device False w) (password : Bytes) :
    Holds deviceId i (createDevice deviceId password)
      (fun result => Owner deviceId i row device (result = .ok true)) w := by
  refine ensures_bind (getClient_holds h fun w' h' => ?_)
  rw [ifOk_ok]
  cases w'.client deviceId with
  | none => exact createAccount_holds h' password
  | some existing =>
    dsimp only
    split
    · refine ensures_bind (ensures_bind (one_holds h' fun w'' _ h'' => ?_))
      have hcleared : Owner deviceId i row device False (w''.send (.deleteClient deviceId)) := by
        refine h''.send _ (iff_of_false (not_usable_of_none ?_) id)
        rcases change_cases w'' (fun _ => rfl : ∀ accounts : Accounts, accounts.documented
          (.deleteClient deviceId) = accounts.change deviceId fun _ => none) with
          ⟨-, -, hnone⟩ | ⟨_, -, -, hnone⟩
        · exact hnone
        · exact hnone
      rw [ifOk_ok]
      split
      · exact createAccount_holds hcleared password
      · exact ⟨hcleared.held, hcleared.devices, by simp [hcleared.usable]⟩
    · exact ⟨h'.held, h'.devices, by simp [h'.usable]⟩

/-- The account is usable if the code says so, not usable if it says the contrary, and as before if
it raises. -/
theorem ensureDevice_holds (h : Owner deviceId i row device usable w) (password : Bytes) :
    Holds deviceId i (ensureDevice deviceId password)
      (fun result => Owner deviceId i row device
        (match result with
          | .ok managed => managed = true
          | .error _ => usable)) w := by
  refine ensures_bind (getClient_holds h fun w' h' => ?_)
  rw [ifOk_ok]
  cases hexisting : w'.client deviceId with
  | none =>
    have hunusable : ¬ usable := by
      rw [← h'.usable]
      exact not_usable_of_none hexisting
    have habsent : Owner deviceId i row device False w' :=
      ⟨h'.held, h'.devices, h'.usable.trans (iff_false_intro hunusable)⟩
    refine ensures_mono (createDevice_holds habsent password) fun result w'' h'' => ?_
    rcases result with failure | managed
    · exact ⟨h''.held, h''.devices, by simpa [hunusable] using h''.usable⟩
    · exact ⟨h''.held, h''.devices, by simpa using h''.usable⟩
  | some existing =>
    dsimp only
    by_cases hmanaged : existing.isManaged = true
    · rw [if_pos hmanaged]
      refine ensures_bind (one_holds h' fun w'' hrely h'' => ?_)
      rw [ifOk_ok]
      rcases change_cases w'' (fun _ => rfl : ∀ accounts : Accounts, accounts.documented
        (.setClientPassword deviceId password) = accounts.change deviceId some) with
        ⟨habsent, hanswer, hnone⟩ | ⟨client, hclient, hanswer, hsame⟩
      · rw [hanswer]
        have hkept := h''.send (.setClientPassword deviceId password)
          ((usable_congr (hnone.trans habsent.symm)).trans h''.usable)
        simpa [Answer.refused] using hkept
      · rw [hanswer]
        have hkept := h''.send (.setClientPassword deviceId password)
          ((usable_congr (hsame.trans hclient.symm)).trans h''.usable)
        -- the account is still the one that was looked up
        obtain rfl := hrely.client_eq h'.held hexisting hclient
        rw [if_neg (by simp [Answer.confirmed])]
        cases hdisabled : existing.disabled with
        | false =>
          have husable : existing.isUsable = true := by simp [Client.isUsable, hdisabled, hmanaged]
          exact ⟨hkept.held, hkept.devices, iff_of_true ⟨existing, hsame, husable⟩ rfl⟩
        | true =>
          rw [if_pos rfl]
          refine ensures_bind (ensures_bind (one_holds hkept fun w₁ hrely₁ h₁ => ?_))
          rw [ifOk_ok]
          rcases change_cases w₁ (fun _ => rfl : ∀ accounts : Accounts, accounts.documented
            (.enableClient deviceId) = accounts.change deviceId fun c =>
              some { c with disabled := false }) with
            ⟨habsent, hanswer, hnone⟩ | ⟨client, hfound, hanswer, henabled⟩
          · rw [hanswer]
            have hraised := h₁.send (.enableClient deviceId)
              ((usable_congr (hnone.trans habsent.symm)).trans h₁.usable)
            simpa [Answer.refused] using hraised
          · rw [hanswer, if_neg (by simp [Answer.confirmed])]
            obtain rfl := hrely₁.client_eq hkept.held hsame hfound
            exact h₁.send _ (iff_of_true
              ⟨_, henabled, Client.isUsable_enabled hmanaged⟩ rfl)
    · rw [if_neg hmanaged]
      exact h'

/-- The account is not usable if the code goes on, and as before if it raises. -/
theorem disableDevice_holds (h : Owner deviceId i row device usable w) :
    Holds deviceId i (disableDevice deviceId)
      (fun result => Owner deviceId i row device
        (match result with
          | .ok _ => False
          | .error _ => usable)) w := by
  refine ensures_bind (getClient_holds h fun w' h' => ?_)
  rw [ifOk_ok]
  cases hexisting : w'.client deviceId with
  | none => exact ⟨h'.held, h'.devices, iff_of_false (not_usable_of_none hexisting) id⟩
  | some existing =>
    dsimp only
    by_cases hmanaged : existing.isManaged = true
    · rw [if_pos hmanaged]
      refine ensures_bind (one_holds h' fun w'' _ h'' => ?_)
      rw [ifOk_ok]
      rcases change_cases w'' (fun _ => rfl : ∀ accounts : Accounts, accounts.documented
        (.disableClient deviceId) = accounts.change deviceId fun c =>
          some { c with disabled := true }) with
        ⟨habsent, hanswer, hnone⟩ | ⟨client, -, hanswer, hdisabled⟩
      · rw [hanswer]
        have hkept := h''.send (.disableClient deviceId)
          ((usable_congr (hnone.trans habsent.symm)).trans h''.usable)
        simpa [Answer.refused] using hkept
      · rw [hanswer]
        -- a disabled account is not usable, whatever else it holds
        have hunusable : ¬ (w''.send (.disableClient deviceId)).Usable deviceId := by
          rintro ⟨found, hfound, husable⟩
          obtain rfl := Option.some.inj (hdisabled.symm.trans hfound)
          simp [Client.isUsable] at husable
        have hdone := h''.send (.disableClient deviceId) (iff_false_intro hunusable)
        simpa [Answer.confirmed] using hdone
    · rw [if_neg hmanaged]
      exact h'

end BrokerAdmin

end Requests

/-! ## Transactions -/

section Transactions

variable {deviceId : Bytes} {i : ι} {w : World security ι} {α : Type} {body : Management α}

def RowManaged (row : Option Device) : Prop := ∃ device, row = some device ∧ device.mqttManaged = true

/-- Call `i` does not hold the row. -/
def Free (deviceId : Bytes) (i : ι) (w : World security ι) : Prop :=
  ∀ row, w.held deviceId ≠ some (i, row)

/-- How the body of a transaction has to end: what the transaction is about to leave agrees with
the account. -/
inductive BodyEnds (deviceId : Bytes) (i : ι) : Except Failure α → World security ι → Prop where
  | returned {a : α} {row device : Option Device} {usable : Prop} {w : World security ι}
      (howner : Owner deviceId i row device usable w) (hagrees : RowManaged row ↔ usable) :
      BodyEnds deviceId i (.ok a) w
  | raised {failure : Failure} {row device : Option Device} {usable : Prop} {w : World security ι}
      (howner : Owner deviceId i row device usable w) (hagrees : RowManaged device ↔ usable) :
      BodyEnds deviceId i (.error failure) w
  | free {failure : Failure} {w : World security ι} (hfree : Free deviceId i w) :
      BodyEnds deviceId i (.error failure) w

theorem Owner.rollback {row device : Option Device} {usable : Prop}
    (h : Owner deviceId i row device usable w) :
    w.rollback i deviceId = w.release deviceId := by
  rw [World.rollback, h.held]
  exact if_pos rfl

theorem Owner.commit {row device : Option Device} {usable : Prop}
    (h : Owner deviceId i row device usable w) : w.commit i deviceId =
      ({ w with devices := Function.update w.devices deviceId row } : World security ι).release
        deviceId := by
  rw [World.commit, h.held]
  exact if_pos rfl

theorem Free.rollback (h : Free deviceId i w) : w.rollback i deviceId = w := by
  unfold World.rollback
  split
  · rfl
  · next j row hheld =>
    refine if_neg fun hself => ?_
    subst hself
    exact h row hheld

/-- The end of a transaction: the row is released, in agreement with the account. -/
theorem transaction_ensures (h : Holds deviceId i body (BodyEnds deviceId i) w) :
    Holds deviceId i (transaction deviceId body)
      (fun result w' => Free deviceId i w' ∧ ∀ a failure, result ≠ .ok (a, .error failure)) w := by
  -- What the body ended with decides the close: nothing held, a rollback, or the commit.
  refine ensures_andThen.mpr (ensures_mono h fun result w' hends => ?_)
  cases hends with
  | free hfree =>
    refine ensures_bind fun w'' hrely answer w₁ hstep => ?_
    have hfree' : Free deviceId i w'' := hrely.free hfree
    cases hstep.1 with
    | performed hperform =>
      simp only [perform, Option.some.injEq, Prod.mk.injEq] at hperform
      obtain ⟨rfl, rfl⟩ := hperform
      rw [hfree'.rollback]
      exact ⟨.refl, hfree', by simp⟩
  | raised howner hagrees =>
    refine ensures_bind fun w'' hrely answer w₁ hstep => ?_
    have howner' := howner.relies hrely
    cases hstep.1 with
    | performed hperform =>
      simp only [perform, Option.some.injEq, Prod.mk.injEq] at hperform
      obtain ⟨rfl, rfl⟩ := hperform
      rw [howner'.rollback]
      refine ⟨.of_released howner'.held release_held ?_, fun row hheld => ?_, by simp⟩
      · refine Iff.trans ?_ (hagrees.trans howner'.usable.symm)
        simp only [World.Managed, World.release, howner'.devices, RowManaged]
      · simp [release_held] at hheld
  | returned howner hagrees =>
    refine fun w'' hrely answer w₁ hstep => ?_
    have howner' := howner.relies hrely
    cases hstep.1 with
    | performed hperform =>
      simp only [perform, Option.some.injEq, Prod.mk.injEq] at hperform
      obtain ⟨rfl, rfl⟩ := hperform
      rw [howner'.commit]
      refine ⟨.of_released howner'.held release_held ?_, fun row hheld => ?_, fun _ _ => by simp⟩
      · refine Iff.trans ?_ (hagrees.trans howner'.usable.symm)
        simp only [World.Managed, World.release, Function.update_self, RowManaged]
      · simp [release_held] at hheld

/-- What a body ensures once the row is taken or found absent; registry and broker agree then. -/
theorem lockDevice_holds {post : Except Failure (Option Device) → World security ι → Prop}
    (hfree : Free deviceId i w) (hsettled : Settled deviceId w)
    (hnone : ∀ w', Free deviceId i w' → post (.ok none) w')
    (hrefused : ∀ w' failure, Free deviceId i w' → post (.error failure) w')
    (hsome : ∀ device w', Owner deviceId i (some device) (some device)
      (device.mqttManaged = true) w' → post (.ok (some device)) w') :
    Holds deviceId i (Repository.lockDevice deviceId) post w := by
  intro w' hrely answer w'' hstep
  have hfree' : Free deviceId i w' := hrely.free hfree
  cases hstep.1 with
  | missed => exact ⟨.refl, hnone w' hfree'⟩
  | performed hperform =>
    simp only [perform] at hperform
    cases hdevice : w'.devices deviceId with
    | none =>
      simp only [hdevice, Option.some.injEq, Prod.mk.injEq] at hperform
      obtain ⟨rfl, rfl⟩ := hperform
      refine ⟨.refl, ?_⟩
      rcases notFound_cases Device deviceId with hanswer | hanswer
      · rw [hanswer]
        exact hnone w' hfree'
      · rw [hanswer]
        exact hrefused w' .dataError hfree'
    | some device =>
      cases hheld : w'.held deviceId with
      | some holder => simp [hdevice, hheld] at hperform
      | none =>
        simp only [hdevice, hheld, Option.some.injEq, Prod.mk.injEq] at hperform
        obtain ⟨rfl, rfl⟩ := hperform
        -- the row lock is free here, so taking it starts the ownership with the settled agreement
        have htaken : (w'.hold i deviceId (some device)).held deviceId = some (i, some device) :=
          Function.update_self ..
        have hagrees := hrely.settled hsettled hheld
        refine ⟨.of_taken hheld htaken, hsome device _ ⟨htaken, hdevice, ?_⟩⟩
        have hmanaged : w'.Managed deviceId ↔ device.mqttManaged = true := by
          simp [World.Managed, hdevice]
        exact hagrees.symm.trans hmanaged

theorem createDevice_holds {device : Device}
    {post : Except Failure Unit → World security ι → Prop}
    (hfree : Free deviceId i w) (hsettled : Settled deviceId w)
    (hrefused : ∀ w' failure, Free deviceId i w' → post (.error failure) w')
    (hcreated : ∀ w', Owner deviceId i (some device) none False w' → post (.ok ()) w') :
    Holds deviceId i (Repository.createDevice deviceId device) post w := by
  intro w' hrely answer w'' hstep
  have hfree' : Free deviceId i w' := hrely.free hfree
  cases hstep.1 with
  | performed hperform =>
    simp only [perform] at hperform
    split at hperform
    · split at hperform
      · next hnone hheld =>
        simp only [Option.some.injEq, Prod.mk.injEq] at hperform
        obtain ⟨rfl, rfl⟩ := hperform
        have htaken : (w'.hold i deviceId (some device)).held deviceId = some (i, some device) :=
          Function.update_self ..
        -- no row and no holder: by agreement the account cannot be usable yet
        have hunusable : ¬ w'.Usable deviceId := fun husable => by
          obtain ⟨row, hrow, -⟩ := (hrely.settled hsettled hheld).mpr husable
          simp [hnone] at hrow
        exact ⟨.of_taken hheld htaken, hcreated _ ⟨htaken, hnone, iff_of_false hunusable id⟩⟩
      · simp only [Option.some.injEq, Prod.mk.injEq] at hperform
        obtain ⟨rfl, rfl⟩ := hperform
        exact ⟨.refl, hrefused w' _ hfree'⟩
      · simp only [Option.some.injEq, Prod.mk.injEq] at hperform
        obtain ⟨rfl, rfl⟩ := hperform
        exact ⟨.refl, hrefused w' _ hfree'⟩
      · simp at hperform
      · simp at hperform
    · simp only [Option.some.injEq, Prod.mk.injEq] at hperform
      obtain ⟨rfl, rfl⟩ := hperform
      exact ⟨.refl, hrefused w' _ hfree'⟩

/-- The holder sets what the row will be. -/
theorem setManaged_holds {device : Device} {committed : Option Device} {usable : Prop}
    {managed : Bool} (h : Owner deviceId i (some device) committed usable w) :
    Holds deviceId i (Repository.setManaged deviceId managed) (fun result w' => result = .ok () ∧
      Owner deviceId i (some { device with mqttManaged := managed }) committed usable w') w := by
  intro w' hrely answer w'' hstep
  have howner := h.relies hrely
  cases hstep.1 with
  | performed hperform =>
    simp only [perform, howner.held, Option.some.injEq, Prod.mk.injEq] at hperform
    obtain ⟨rfl, rfl⟩ := hperform
    have hheld : (w'.hold i deviceId (some { device with mqttManaged := managed })).held deviceId =
        some (i, some { device with mqttManaged := managed }) := Function.update_self ..
    exact ⟨.of_held howner.held hheld, rfl, hheld, howner.devices, howner.usable⟩

theorem registration_holds (credentials : Credentials) (salt : Bytes) (r : DeviceRegistration)
    (hfree : Free r.deviceId i w) (hsettled : Settled r.deviceId w) :
    Holds r.deviceId i (registration credentials salt r) (BodyEnds r.deviceId i) w := by
  refine ensures_bind fun w' hrely answer w'' hstep => ?_
  have hfree' : Free r.deviceId i w' := hrely.free hfree
  cases hstep.1 with
  | performed hperform =>
    simp only [perform] at hperform
    cases hgateway : w'.gateways r.gatewayId with
    | none =>
      simp only [hgateway, Option.some.injEq, Prod.mk.injEq] at hperform
      obtain ⟨rfl, rfl⟩ := hperform
      refine ⟨.refl, ?_⟩
      rcases notFound_cases Gateway r.gatewayId with hanswer | hanswer
      · rw [hanswer]
        exact .free hfree'
      · rw [hanswer]
        exact .free hfree'
    | some gateway =>
      simp only [hgateway, Option.some.injEq, Prod.mk.injEq] at hperform
      obtain ⟨rfl, rfl⟩ := hperform
      refine ⟨.refl, ?_⟩
      simp only [Program.Ensures, ifOk_ok]
      split
      · exact .free hfree'
      · split
        · exact .free hfree'
        · refine ensures_bind (createDevice_holds hfree' (hrely.settled hsettled)
            (fun w₁ _ h₁ => .free h₁) fun w₁ h₁ => ?_)
          rw [ifOk_ok]
          -- a raised broker error ends with the row only pending, which the rollback drops
          refine ensures_bind (ensures_mono (BrokerAdmin.createDevice_holds h₁ r.password)
            fun result w₂ h₂ => ?_)
          rcases result with failure | created
          · exact .raised h₂ (by simp [RowManaged])
          · rw [ifOk_ok]
            refine ensures_bind (ensures_mono (setManaged_holds h₂) fun result w₃ h₃ => ?_)
            obtain ⟨rfl, h₃⟩ := h₃
            exact .returned h₃ (by simp [RowManaged])

theorem deleteDevice_holds {row device : Option Device} {usable : Prop}
    {post : Except Failure Unit → World security ι → Prop}
    (h : Owner deviceId i row device usable w)
    (hkept : ∀ w', Owner deviceId i row device usable w' → post (.error .integrityError) w')
    (hdeleted : ∀ w', Owner deviceId i none device usable w' → post (.ok ()) w') :
    Holds deviceId i (Repository.deleteDevice deviceId) post w := by
  intro w' hrely answer w'' hstep
  have howner := h.relies hrely
  cases hstep.1 with
  | performed hperform =>
    simp only [perform] at hperform
    split at hperform
    · simp only [Option.some.injEq, Prod.mk.injEq] at hperform
      obtain ⟨rfl, rfl⟩ := hperform
      exact ⟨.refl, hkept w' howner⟩
    · simp only [Option.some.injEq, Prod.mk.injEq] at hperform
      obtain ⟨rfl, rfl⟩ := hperform
      have hheld : (w'.hold i deviceId none).held deviceId = some (i, none) :=
        Function.update_self ..
      exact ⟨.of_held howner.held hheld, hdeleted _ ⟨hheld, howner.devices, howner.usable⟩⟩

theorem removal_holds (hfree : Free deviceId i w) (hsettled : Settled deviceId w) :
    Holds deviceId i (removal deviceId) (BodyEnds deviceId i) w := by
  refine ensures_bind (lockDevice_holds hfree hsettled (fun w' h' => .free h')
    (fun w' _ h' => .free h') fun device w' h' => ?_)
  rw [ifOk_ok]
  refine ensures_bind (deleteDevice_holds h' (fun w'' h'' => .raised h'' (by simp [RowManaged]))
    fun w'' h'' => ?_)
  rw [ifOk_ok]
  split
  · next hmanaged =>
    refine ensures_mono (BrokerAdmin.disableDevice_holds h'') fun result w₁ h₁ => ?_
    rcases result with failure | disabled
    · exact .raised h₁ (by simp [RowManaged])
    · exact .returned h₁ (by simp [RowManaged])
  · next hunmanaged => exact .returned h'' (by simp [RowManaged, hunmanaged])

theorem configuration_holds (credentials : Credentials) (password : Bytes)
    (hfree : Free deviceId i w) (hsettled : Settled deviceId w) :
    Holds deviceId i (configuration credentials deviceId password) (BodyEnds deviceId i) w := by
  refine ensures_bind (lockDevice_holds hfree hsettled (fun w' h' => .free h')
    (fun w' _ h' => .free h') fun device w' h' => ?_)
  rw [ifOk_ok]
  dsimp only
  split
  · refine ensures_bind (ensures_mono (BrokerAdmin.ensureDevice_holds h' password)
      fun result w'' h'' => ?_)
    rcases result with failure | managed
    · exact .raised h'' (by simp [RowManaged])
    · rw [ifOk_ok]
      refine ensures_mono (setManaged_holds h'') fun result w₁ h₁ => ?_
      obtain ⟨rfl, h₁⟩ := h₁
      exact .returned h₁ (by simp [RowManaged])
  · exact .raised h' (by simp [RowManaged])

end Transactions

/-! ## Calls -/

section Calls

variable {deviceId : Bytes} {i : ι} {w : World security ι} (credentials : Credentials)

/-- The last command of a removal, beside the other calls, lets at most a useless account go. -/
theorem cleanup_holds (hfree : Free deviceId i w) :
    Holds deviceId i (unlessUnavailable (BrokerAdmin.deleteDevice .cleanup deviceId))
      (fun _ => Free deviceId i) w := by
  refine ensures_andThen.mpr (ensures_bind fun w' hrely answer w'' hstep => ?_)
  have hfree' : Free deviceId i w' := hrely.free hfree
  -- The step is safe only where the account it deletes is unusable.
  have hunusable : ¬ w'.Usable deviceId := hstep.2 deviceId rfl
  cases hstep.1 with
  | performed hperform =>
    simp only [perform, Option.some.injEq, Prod.mk.injEq] at hperform
    obtain ⟨rfl, rfl⟩ := hperform
    constructor
    · refine .of_fades rfl rfl ?_
      rcases change_cases w' (fun _ => rfl : ∀ accounts : Accounts, accounts.documented
        (.deleteClient deviceId) = accounts.change deviceId fun _ => none) with
        ⟨habsent, -, hnone⟩ | ⟨client, hclient, -, hnone⟩
      · exact .inl (hnone.trans habsent.symm)
      · refine .inr ⟨hnone, fun found hfound => ?_⟩
        by_contra husable
        exact hunusable ⟨found, hfound, by simpa using husable⟩
    · have hafter : Free deviceId i (w'.send (.deleteClient deviceId)) := hfree'
      simp only [Program.Ensures, ifOk_ok]
      split <;> exact hafter

theorem registerDevice_holds (salt : Bytes) (r : DeviceRegistration)
    (hfree : Free r.deviceId i w) (hsettled : Settled r.deviceId w) :
    Holds r.deviceId i (registerDevice credentials salt r) (fun _ => Free r.deviceId i) w := by
  refine ensures_bind (ensures_mono (transaction_ensures
    (registration_holds credentials salt r hfree hsettled)) fun result w' ⟨hfree', hok⟩ => ?_)
  rcases result with failure | ⟨created, failure | _⟩
  · exact hfree'
  · exact absurd rfl (hok created failure)
  · exact hfree'

theorem removeDevice_holds (hfree : Free deviceId i w) (hsettled : Settled deviceId w) :
    Holds deviceId i (removeDevice deviceId) (fun _ => Free deviceId i) w := by
  refine ensures_bind (ensures_mono (transaction_ensures (removal_holds hfree hsettled))
    fun result w' ⟨hfree', hok⟩ => ?_)
  rcases result with failure | ⟨disabled, failure | _⟩
  · exact hfree'
  · exact absurd rfl (hok disabled failure)
  · rw [ifOk_ok]
    cases disabled with
    | false => exact hfree'
    | true => exact cleanup_holds hfree'

theorem configureExistingMqtt_holds (password : Bytes) (hfree : Free deviceId i w)
    (hsettled : Settled deviceId w) :
    Holds deviceId i (configureExistingMqtt credentials deviceId password)
      (fun _ => Free deviceId i) w := by
  refine ensures_bind (ensures_mono (transaction_ensures
    (configuration_holds credentials password hfree hsettled)) fun result w' ⟨hfree', _⟩ => ?_)
  rcases result with failure | ⟨_, committed⟩
  · exact hfree'
  · exact hfree'

theorem program_holds (call : Call) (hfree : Free call.deviceId i w)
    (hsettled : Settled call.deviceId w) :
    Holds call.deviceId i (call.program credentials) (fun _ => Free call.deviceId i) w := by
  cases call with
  | register salt r =>
    refine ensures_bind (ensures_mono (registerDevice_holds credentials salt r hfree hsettled)
      fun result w' h => ?_)
    cases result <;> exact h
  | remove deviceId =>
    refine ensures_bind (ensures_mono (removeDevice_holds hfree hsettled) fun result w' h => ?_)
    cases result <;> exact h
  | configure deviceId password =>
    refine ensures_bind (ensures_mono (configureExistingMqtt_holds credentials password hfree
      hsettled) fun result w' h => ?_)
    cases result <;> exact h

end Calls

/-! ## Agreement -/

/-- In every run of calls on one device whose steps meet the condition, registry and broker agree
whenever no transaction holds the row, and when all calls have returned. -/
theorem agrees_when_ended (security : DynamicSecurity) (credentials : Credentials)
    (calls : ι → Call) (deviceId : Bytes) (hcalls : ∀ i, (calls i).deviceId = deviceId)
    (w : World security ι) (hidle : w.held deviceId = none) (hagrees : w.Agrees deviceId)
    (t : Threads Request Request.Result Failure (fun _ : ι => Option DeviceStatus)
      (World security ι))
    (hrun : Threads.Run TakesSafely ⟨w, fun i => (calls i).program credentials⟩ t) :
    (t.state.held deviceId = none → t.state.Agrees deviceId) ∧
    (t.Ended → t.state.Agrees deviceId) := by
  have hfree (i : ι) : Free deviceId i w := fun row hheld => by simp [hidle] at hheld
  -- Every thread starts free of the row and keeps to the discipline of the lock.
  have hkept : (discipline security ι deviceId).Kept TakesSafely
      (fun i (_ : Except Failure (Option DeviceStatus)) => Free deviceId i)
      ⟨w, fun i => (calls i).program credentials⟩ := by
    refine ⟨fun _ => hagrees, fun i => ?_⟩
    have hholds := program_holds credentials (calls i) (i := i) (w := w)
    rw [hcalls i] at hholds
    exact hholds (hfree i) fun _ => hagrees
  have hstays (i : ι) (_ : Except Failure (Option DeviceStatus)) (a b : World security ι)
      (hrely : Relies deviceId i a b) (h : Free deviceId i a) : Free deviceId i b := hrely.free h
  have hsettled : Settled deviceId t.state := (RelyGuarantee.run_kept hstays hkept hrun).1
  refine ⟨hsettled, fun hended => hsettled ?_⟩
  obtain ⟨-, hends⟩ := RelyGuarantee.run_ensures hstays hkept hrun hended
  cases hheld : t.state.held deviceId with
  | none => rfl
  | some holder =>
    obtain ⟨_, hfree⟩ := hends holder.1
    exact absurd hheld (hfree holder.2)

/-! ## A Removal and a Registration -/

/-- The removal is call `false`, the registration call `true`. -/
def sampleCalls : Bool → Call
  | false => .remove (ascii "esp32-1")
  | true => .register [] ⟨ascii "esp32-1", ascii "gateway-1", ascii "Pump", ascii "long-password"⟩

/-- One gateway, one managed device, and its account. -/
def registeredWorld : World .plain Bool where
  gateways gatewayId := if gatewayId = ascii "gateway-1" then some ⟨true, true⟩ else none
  devices deviceId := if deviceId = ascii "esp32-1" then
    some ⟨ascii "gateway-1", ascii "Pump", true, none, true⟩ else none
  held _ := none
  history _ := false
  legacyFile := []
  broker := ⟨fun username => if username = ascii "esp32-1" then some createdClient else none,
    fun role => decide (role = deviceRole)⟩

theorem registeredWorld_agrees : registeredWorld.Agrees (ascii "esp32-1") :=
  ⟨fun _ => ⟨createdClient, rfl, by decide⟩, fun _ => ⟨_, rfl, rfl⟩⟩

/-- `CleanupMeetsNone` fails. -/
def meetsUsable : Request → World security ι → Bool
  | .broker .cleanup (.deleteClient deviceId), w => (w.client deviceId).any Client.isUsable
  | _, _ => false

/-- A step that is only taken if it meets the condition. -/
def performSafely (i : ι) (r : Request) (w : World security ι) :
    Option (Except Failure r.Result × World security ι) :=
  if meetsUsable r w then none else perform (fun _ => .confirmed) i r w

theorem takesSafely_of_perform (i : ι) (r : Request) (w : World security ι)
    (answer : Except Failure r.Result) (w' : World security ι)
    (h : performSafely i r w = some (answer, w')) : TakesSafely i r w answer w' := by
  unfold performSafely at h
  cases hmeets : meetsUsable r w with
  | true => simp [hmeets] at h
  | false =>
    refine ⟨.performed (by simpa [hmeets] using h), ?_⟩
    rintro deviceId rfl ⟨client, hfound, husable⟩
    simp [meetsUsable, hfound, husable] at hmeets

theorem takes_of_perform (i : ι) (r : Request) (w : World security ι)
    (answer : Except Failure r.Result) (w' : World security ι)
    (h : perform (fun _ => .confirmed) i r w = some (answer, w')) : Takes i r w answer w' :=
  .performed h

def sampleThreads : Threads Request Request.Result Failure (fun _ : Bool => Option DeviceStatus)
    (World .plain Bool) :=
  ⟨registeredWorld, fun i => (sampleCalls i).program .plain⟩

/-- The registration looks up its gateway while the removal holds the row, inserts when the removal
has committed, and clears the disabled account just before the removal's last command. -/
def sampleSchedule : List Bool :=
  [false, true, false, false, false, false, true, true, true, false, true, true, true, true, true]

theorem agrees_when_ended_sample : ∃ t,
    Threads.follow performSafely sampleSchedule sampleThreads = some t ∧ t.Ended ∧
      t.state.Managed (ascii "esp32-1") ∧ t.state.Agrees (ascii "esp32-1") := by
  have hended : ∃ t, Threads.follow performSafely sampleSchedule sampleThreads = some t ∧
      t.Ended ∧ t.state.Managed (ascii "esp32-1") := by
    refine ⟨_, rfl, ?_, _, rfl, rfl⟩
    rintro (_ | _) <;> exact ⟨_, rfl⟩
  obtain ⟨t, hfollow, hended, hmanaged⟩ := hended
  have hsafe : Threads.Run TakesSafely sampleThreads t :=
    Threads.run_of_follow takesSafely_of_perform hfollow
  exact ⟨t, hfollow, hended, hmanaged, (agrees_when_ended .plain .plain sampleCalls
    (ascii "esp32-1") (by rintro (_ | _) <;> rfl) registeredWorld rfl registeredWorld_agrees t
    hsafe).2 hended⟩

/-- The removal commits, the registration runs to its end, and then the removal's last command
deletes the new account. -/
theorem cleanup_meets_registration : registeredWorld.Agrees (ascii "esp32-1") ∧ ∃ t,
    Threads.Run Takes sampleThreads t ∧ t.Ended ∧ ¬ t.state.Agrees (ascii "esp32-1") := by
  have hruns : ∃ t, Threads.follow (perform fun _ => .confirmed)
      (List.replicate 5 false ++ List.replicate 9 true ++ [false]) sampleThreads = some t ∧
      t.Ended ∧ t.state.client (ascii "esp32-1") = none ∧
      t.state.Managed (ascii "esp32-1") := by
    refine ⟨_, rfl, ?_, rfl, _, rfl, rfl⟩
    rintro (_ | _) <;> exact ⟨_, rfl⟩
  obtain ⟨t, hfollow, hended, hnone, hmanaged⟩ := hruns
  refine ⟨registeredWorld_agrees, t, Threads.run_of_follow takes_of_perform hfollow, hended,
    fun hagrees => ?_⟩
  exact not_usable_of_none hnone (hagrees.mp hmanaged)

end EquipmentMonitoring.Devices
