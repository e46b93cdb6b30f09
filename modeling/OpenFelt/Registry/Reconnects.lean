/-
  OpenFelt.Registry.Reconnects — reconnect credentials over a registry's life
  (`src/table_registry.rs`).

  A run makes the three calls on credentials in any order, lets credentials expire and
  restarts the registry from its durable records; between the calls the rest of the
  registry becomes anything. Proved (`reconnects_single_use`), when the tokens drawn are
  distinct and their verifiers do not collide: a principal has one credential at most, a
  token that was rotated away, superseded or has expired is refused ever after, a live
  one rotates and speaks for its own principal, and the vault stays within its capacity.
-/

import OpenFelt.Registry.TableRegistry
import OpenFelt.Registry.Vault

namespace OpenFelt

/-! ## Runs -/

/-- A call on credentials, a restart, or what the registry's other calls make of the rest. -/
inductive ReconnectOp where
  | issue (draws : List (List UInt8)) (now : Nat) (principal : GuestSessionId)
  | rotate (draws : List (List UInt8)) (now : Nat) (token : String)
  | identify (now : Nat) (token : String)
  | expire (now : Nat)
  | restart (now : Nat)
  | between (other : TableRegistry)

namespace ReconnectOp

variable (h : Hashes)

/-- A call whose draws do not end, and a restart that fails, leave the registry. -/
def apply : ReconnectOp → TableRegistry → TableRegistry
  | issue draws now principal, r => ((r.issueReconnectCredential h draws now principal).map (·.2)).getD r
  | rotate draws now token, r => ((r.authenticateAndRotateReconnect h draws now token).map (·.2)).getD r
  | identify now token, r => (r.identifyReconnect h now token).2
  | expire now, r => { r with credentials := r.credentials.expireAt now }
  | restart now, r =>
    match CredentialVault.restore now r.credentials.capacity r.credentials.durableRecords with
    | .ok credentials => { r with credentials := credentials }
    | .error _ => r
  | between other, r => { other with credentials := r.credentials }

/-- The credential the vault makes out. -/
def issued : ReconnectOp → TableRegistry → Option IssuedCredential
  | issue draws now principal, r =>
    (r.sessions.find? principal).bind fun route =>
      ((r.credentials.revokePrincipal principal).issue h draws now principal ⟨route.tableId, .reconnect⟩ r.reconnectTtl).bind
        (·.1.toOption)
  | rotate draws now token, r =>
    (r.credentials.authenticateAndRotate h draws now token .reconnect r.reconnectTtl).bind (·.1.toOption)
  | _, _ => none

/-- When the call strikes out what has expired. -/
def sweeps : ReconnectOp → TableRegistry → Option Nat
  | issue draws now principal, r =>
    if (r.sessions.find? principal).isSome ∧ (r.issueReconnectCredential h draws now principal).isSome then some now else none
  | rotate draws now token, r => if (r.authenticateAndRotateReconnect h draws now token).isSome then some now else none
  | identify now _, _ => some now
  | expire now, _ => some now
  | restart now, r =>
    if (CredentialVault.restore now r.credentials.capacity r.credentials.durableRecords).isOk then some now else none
  | between _, _ => none

end ReconnectOp

namespace TableRegistry

variable (h : Hashes)

def reconnects (r : TableRegistry) (ops : List ReconnectOp) : TableRegistry := ops.foldl (fun r op => op.apply h r) r

/-- The credentials a run makes out. -/
def issuedBy : TableRegistry → List ReconnectOp → List IssuedCredential
  | _, [] => []
  | r, op :: ops => (op.issued h r).toList ++ issuedBy (op.apply h r) ops

variable {h} {r : TableRegistry} {capacity : Nat} {op : ReconnectOp} {ops : List ReconnectOp}

theorem reconnects_append (before after : List ReconnectOp) :
    r.reconnects h (before ++ after) = (r.reconnects h before).reconnects h after := List.foldl_append ..

theorem issuedBy_append (before after : List ReconnectOp) :
    r.issuedBy h (before ++ after) = r.issuedBy h before ++ (r.reconnects h before).issuedBy h after := by
  induction before generalizing r with
  | nil => rfl
  | cons op before ih =>
    rw [List.cons_append, issuedBy, issuedBy, ih, List.append_assoc]
    rfl

/-- The ticket of an issued credential. -/
def ticket (h : Hashes) (issued : IssuedCredential) : String × StoredCredential :=
  (h.tokenVerifier issued.grant.token, issued.stored)

/-- One call is a turn at the desk; nothing it sweeps has expired, and it stays in bounds. -/
structure Turned (h : Hashes) (capacity : Nat) (op : ReconnectOp) (r : TableRegistry) : Prop where
  turn : Tickets.Turn StoredCredential.principal r.credentials.book ((op.issued h r).map (ticket h))
    (op.apply h r).credentials.book
  bounded : (op.apply h r).credentials.Bounded capacity
  swept : ∀ now, op.sweeps h r = some now → ∀ k s, (op.apply h r).credentials.book k = some s →
    now < s.expiresAt ∨ (op.issued h r).map (ticket h) = some (k, s)

/-- A call that makes out nothing. -/
theorem Turned.of_part (hissued : op.issued h r = none) (hbounded : (op.apply h r).credentials.Bounded capacity)
    (hpart : ∀ k s, (op.apply h r).credentials.book k = some s → ∃ s', r.credentials.book k = some s' ∧ s ≤ s')
    (hswept : ∀ now, op.sweeps h r = some now → ∀ k s, (op.apply h r).credentials.book k = some s → now < s.expiresAt) :
    Turned h capacity op r := by
  refine ⟨?_, hbounded, fun now hnow k s hk => Or.inl (hswept now hnow k s hk)⟩
  rw [hissued]
  exact .of_le hpart

theorem Turned.idle (hv : r.credentials.Bounded capacity) (hissued : op.issued h r = none)
    (happly : (op.apply h r).credentials = r.credentials) (hsweeps : op.sweeps h r = none) : Turned h capacity op r := by
  refine .of_part hissued (happly ▸ hv) (fun k s hk => ⟨s, happly ▸ hk, le_rfl⟩) fun now hnow => ?_
  rw [hsweeps] at hnow
  cases hnow

section turns
variable {draws : List (List UInt8)} {now : Nat} {principal : GuestSessionId} {token : String}

theorem issue_turned (hv : r.credentials.Bounded capacity) : Turned h capacity (.issue draws now principal) r := by
  cases hroute : r.sessions.find? principal with
  | none =>
    refine .idle hv (by simp [ReconnectOp.issued, hroute]) ?_ (by simp [ReconnectOp.sweeps, hroute])
    simp [ReconnectOp.apply, issueReconnectCredential, hroute]
  | some route =>
    cases hi : (r.credentials.revokePrincipal principal).issue h draws now principal ⟨route.tableId, .reconnect⟩
        r.reconnectTtl with
    | none =>
      refine .idle hv (by simp [ReconnectOp.issued, hroute, hi]) ?_ ?_
      · simp [ReconnectOp.apply, issueReconnectCredential, hroute, hi]
      · simp [ReconnectOp.sweeps, issueReconnectCredential, hroute, hi]
    | some answer =>
      obtain ⟨result, v'⟩ := answer
      have hrevoked : ∀ k s, (r.credentials.revokePrincipal principal).book k = some s → r.credentials.book k = some s :=
        fun k s hk => (CredentialVault.book_revokePrincipal.mp hk).1
      have hpart : (r.credentials.revokePrincipal principal).Bounded capacity :=
        hv.part rfl (OrdMap.size_filterKey_le _ _) hrevoked
      have happly : (ReconnectOp.apply h (.issue draws now principal) r).credentials = v' := by
        simp [ReconnectOp.apply, issueReconnectCredential, hroute, hi]
      have hissued : ReconnectOp.issued h (.issue draws now principal) r = result.toOption := by
        simp [ReconnectOp.issued, hroute, hi]
      have hsweeps : ∀ t, ReconnectOp.sweeps h (.issue draws now principal) r = some t → t = now := by
        intro t ht
        simp only [ReconnectOp.sweeps] at ht
        split at ht
        · exact (Option.some.inj ht).symm
        · cases ht
      rcases CredentialVault.issue_cases hi with ⟨rfl, rfl, _⟩ | ⟨issued, rfl, hmade⟩
      · refine .of_part hissued (happly ▸ hpart.expireAt now) ?_ ?_
        · rw [happly]
          exact fun k s hk => ⟨s, hrevoked k s (CredentialVault.book_expireAt.mp hk).1, le_rfl⟩
        · rw [happly]
          intro t ht k s hk
          rw [hsweeps t ht]
          exact (CredentialVault.book_expireAt.mp hk).2
      · have hmap : (ReconnectOp.issued h (.issue draws now principal) r).map (ticket h) =
            some (h.tokenVerifier issued.grant.token, issued.stored) := by rw [hissued]; rfl
        refine ⟨?_, happly ▸ hmade.bounded hpart rfl, ?_⟩
        · rw [hmap, happly]
          exact hmade.turn hrevoked fun _ k s hk => (CredentialVault.book_revokePrincipal.mp hk).2
        · rw [hmap, happly]
          intro t ht k s hk
          rw [hsweeps t ht]
          exact hmade.swept hk

theorem rotate_turned (hv : r.credentials.Bounded capacity) : Turned h capacity (.rotate draws now token) r := by
  cases hi : r.credentials.authenticateAndRotate h draws now token .reconnect r.reconnectTtl with
  | none =>
    refine .idle hv (by simp [ReconnectOp.issued, hi]) ?_ ?_
    · simp [ReconnectOp.apply, authenticateAndRotateReconnect, hi]
    · simp [ReconnectOp.sweeps, authenticateAndRotateReconnect, hi]
  | some answer =>
    obtain ⟨result, v'⟩ := answer
    have happly : (ReconnectOp.apply h (.rotate draws now token) r).credentials = v' := by
      simp [ReconnectOp.apply, authenticateAndRotateReconnect, hi]
    have hissued : ReconnectOp.issued h (.rotate draws now token) r = result.toOption := by
      simp [ReconnectOp.issued, hi]
    have hsweeps : ReconnectOp.sweeps h (.rotate draws now token) r = some now := by
      simp [ReconnectOp.sweeps, authenticateAndRotateReconnect, hi]
    rcases CredentialVault.authenticateAndRotate_cases hv hi with ⟨rfl, rfl, _⟩ | ⟨stored, issued, hfind, rfl, hmade⟩
    · refine .of_part hissued (happly ▸ (hv.expireAt now).refuse) ?_ ?_
      · rw [happly]
        exact fun k s hk => ⟨s, (CredentialVault.book_expireAt.mp hk).1, le_rfl⟩
      · rw [happly, hsweeps]
        intro t ht k s hk
        cases ht
        exact (CredentialVault.book_expireAt.mp hk).2
    · obtain ⟨hturn, hbounded⟩ := CredentialVault.rotate_turn hv hfind hmade
      have hmap : (ReconnectOp.issued h (.rotate draws now token) r).map (ticket h) =
          some (h.tokenVerifier issued.grant.token, issued.stored) := by rw [hissued]; rfl
      refine ⟨?_, happly ▸ hbounded, ?_⟩
      · rw [hmap, happly]
        exact hturn
      · rw [hmap, happly, hsweeps]
        intro t ht k s hk
        cases ht
        exact hmade.swept hk

end turns

theorem turned (hv : r.credentials.Bounded capacity) (op : ReconnectOp) : Turned h capacity op r := by
  cases op with
  | issue draws now principal => exact issue_turned hv
  | rotate draws now token => exact rotate_turned hv
  | identify now token =>
    obtain ⟨hbook, hsame⟩ := r.credentials.authenticate_snd h now token .reconnect
    have happly : (ReconnectOp.apply h (.identify now token) r).credentials =
        (r.credentials.authenticate h now token .reconnect).2 := rfl
    refine .of_part rfl ?_ ?_ ?_
    · rw [happly]
      rcases hsame with hsame | hsame <;> rw [hsame]
      · exact hv.expireAt now
      · exact (hv.expireAt now).refuse
    · rw [happly, hbook]
      exact fun k s hk => ⟨s, (CredentialVault.book_expireAt.mp hk).1, le_rfl⟩
    · rw [happly, hbook]
      intro t ht k s hk
      cases ht
      exact (CredentialVault.book_expireAt.mp hk).2
  | expire now =>
    refine .of_part rfl (hv.expireAt now) (fun k s hk => ⟨s, (CredentialVault.book_expireAt.mp hk).1, le_rfl⟩) ?_
    intro t ht k s hk
    cases ht
    exact (CredentialVault.book_expireAt.mp hk).2
  | restart now =>
    cases hr : CredentialVault.restore now r.credentials.capacity r.credentials.durableRecords with
    | error e =>
      refine .idle hv rfl ?_ ?_
      · simp [ReconnectOp.apply, hr]
      · simp [ReconnectOp.sweeps, hr, Except.isOk, Except.toBool]
    | ok v' =>
      obtain ⟨hlimit, hsize, hbook⟩ := CredentialVault.restore_ok hr
      have happly : (ReconnectOp.apply h (.restart now) r).credentials = v' := by simp [ReconnectOp.apply, hr]
      refine .of_part rfl ?_ ?_ ?_ <;> rw [happly]
      · refine ⟨hlimit.trans hv.limit, hsize.trans hv.size, fun k s' hk => ?_⟩
        obtain ⟨_, s, hs, hle⟩ := hbook k s' hk
        rw [hle.1]
        exact hv.role k s hs
      · exact fun k s' hk => (hbook k s' hk).2
      · intro t ht k s' hk
        have htime : t = now := by
          simp only [ReconnectOp.sweeps] at ht
          split at ht
          · exact (Option.some.inj ht).symm
          · cases ht
        rw [htime]
        exact (hbook k s' hk).1
  | between other => exact .idle hv rfl rfl rfl

/-- A run is a run of turns, and stays in bounds. -/
theorem reconnects_run (hv : r.credentials.Bounded capacity) (ops : List ReconnectOp) :
    Tickets.Run StoredCredential.principal r.credentials.book ((r.issuedBy h ops).map (ticket h))
      (r.reconnects h ops).credentials.book ∧ (r.reconnects h ops).credentials.Bounded capacity := by
  induction ops using List.reverseRecOn with
  | nil => exact ⟨.nil, hv⟩
  | append_singleton ops op ih =>
    obtain ⟨hrun, hbounded⟩ := ih
    have hstep := turned (h := h) hbounded op
    have hissued : (r.issuedBy h (ops ++ [op])).map (ticket h) =
        (r.issuedBy h ops).map (ticket h) ++ ((op.issued h (r.reconnects h ops)).map (ticket h)).toList := by
      rw [issuedBy_append, List.map_append]
      cases hop : op.issued h (r.reconnects h ops) <;> simp [issuedBy, hop]
    rw [reconnects_append, hissued]
    exact ⟨hrun.snoc hstep.turn, hstep.bounded⟩

/-! ## Single use -/

/-- The generator draws no token twice, and no two of `tokens` have one verifier. -/
structure CollisionFree (h : Hashes) (tokens : Set String) (made : List IssuedCredential) : Prop where
  hash : Set.InjOn h.tokenVerifier tokens
  known : ∀ issued ∈ made, issued.grant.token ∈ tokens
  random : (made.map (·.grant.token)).Nodup

section spent
variable {tokens : Set String} {made : List IssuedCredential} {issued : IssuedCredential} {token : String}

theorem CollisionFree.keys (hc : CollisionFree h tokens made) : ((made.map (ticket h)).map (·.1)).Nodup := by
  have hmap : (made.map (ticket h)).map (·.1) = (made.map (·.grant.token)).map h.tokenVerifier := by
    rw [List.map_map, List.map_map]
    rfl
  rw [hmap]
  refine hc.random.map_on ?_
  intro a ha b hb heq
  obtain ⟨i, hi, rfl⟩ := List.mem_map.mp ha
  obtain ⟨j, hj, rfl⟩ := List.mem_map.mp hb
  exact hc.hash (hc.known i hi) (hc.known j hj) heq

/-- The calls that use up an issued credential. -/
inductive Spends (h : Hashes) (r : TableRegistry) (issued : IssuedCredential) : ReconnectOp → Prop
  | rotated (draws : List (List UInt8)) (now : Nat) :
      (r.authenticateAndRotateReconnect h draws now issued.grant.token).isSome = true →
      Spends h r issued (.rotate draws now issued.grant.token)
  | superseded (draws : List (List UInt8)) (now : Nat) :
      (r.sessions.find? issued.principal).isSome = true →
      (r.issueReconnectCredential h draws now issued.principal).isSome = true →
      Spends h r issued (.issue draws now issued.principal)
  | expired (op : ReconnectOp) (now : Nat) : op.sweeps h r = some now → issued.expiresAt ≤ now → Spends h r issued op

/-- The token authenticates nobody. -/
def Refuses (h : Hashes) (r : TableRegistry) (token : String) : Prop :=
  ∀ now, (r.identifyReconnect h now token).1 = .error unknownCredential ∧
    ∀ draws, (r.authenticateAndRotateReconnect h draws now token).map (·.1) = some (.error unknownCredential)

theorem refuses_of_gone (hgone : r.credentials.book (h.tokenVerifier token) = none) : Refuses h r token := by
  intro now
  have hfind : (r.credentials.expireAt now).entries.find? (h.tokenVerifier token) = none := by
    cases hk : (r.credentials.expireAt now).entries.find? (h.tokenVerifier token) with
    | none => rfl
    | some s =>
      have hs := (CredentialVault.book_expireAt.mp hk).1
      rw [hgone] at hs
      cases hs
  constructor
  · simp [identifyReconnect, CredentialVault.authenticate, hfind]
  · intro draws
    simp [authenticateAndRotateReconnect, CredentialVault.authenticateAndRotate, hfind]

/-- What is live was issued in the run, to the same principal and for as long at least. -/
theorem origin_of_live (hempty : ∀ k, r.credentials.book k = none) (hv : r.credentials.Bounded capacity) {k : String}
    {s : StoredCredential} (hk : (r.reconnects h ops).credentials.book k = some s) :
    ∃ issued ∈ r.issuedBy h ops, h.tokenVerifier issued.grant.token = k ∧ s ≤ issued.stored := by
  obtain ⟨a, hbook | hmade, hle⟩ := (reconnects_run hv ops).1.origin hk
  · rw [hempty] at hbook
    cases hbook
  · obtain ⟨issued, hmem, heq⟩ := List.mem_map.mp hmade
    cases heq
    exact ⟨issued, hmem, rfl, hle⟩

/-- A call that uses a credential up strikes it out. -/
theorem Spends.struck {before : List ReconnectOp} (hempty : ∀ k, r.credentials.book k = none)
    (hv : r.credentials.Bounded capacity) (hc : CollisionFree h tokens (r.issuedBy h (before ++ [op])))
    (hi : issued ∈ r.issuedBy h before) (hs : Spends h (r.reconnects h before) issued op) :
    (r.reconnects h (before ++ [op])).credentials.book (h.tokenVerifier issued.grant.token) = none := by
  have hbounded := (reconnects_run (h := h) hv before).2
  have hmine : issued ∈ r.issuedBy h (before ++ [op]) := by
    rw [issuedBy_append]
    exact List.mem_append_left _ hi
  -- what is made out now is another credential
  have hother : ∀ made, op.issued h (r.reconnects h before) = some made →
      h.tokenVerifier issued.grant.token ≠ h.tokenVerifier made.grant.token := by
    intro made hmade heq
    have hnodup := hc.keys
    rw [issuedBy_append, List.map_append, List.map_append] at hnodup
    refine (List.nodup_append'.mp hnodup).2.2 (List.mem_map_of_mem (List.mem_map_of_mem hi)) ?_
    simp [issuedBy, hmade, ticket, heq]
  cases hk : (r.reconnects h (before ++ [op])).credentials.book (h.tokenVerifier issued.grant.token) with
  | none => rfl
  | some s =>
    obtain ⟨issued', hmem', hkey, hle⟩ := origin_of_live hempty hv hk
    have hsame : issued' = issued := by
      have htoken := hc.hash (hc.known _ hmem') (hc.known _ hmine) hkey
      exact List.inj_on_of_nodup_map hc.random hmem' hmine htoken
    rw [hsame] at hle
    rw [reconnects_append] at hk
    generalize r.reconnects h before = q at *
    have hk : (op.apply h q).credentials.book (h.tokenVerifier issued.grant.token) = some s := hk
    exfalso
    cases hs with
    | expired op now hsweeps hexpired =>
      rcases (turned hbounded op).swept now hsweeps _ s hk with hlater | hnew
      · have hends : s.expiresAt ≤ issued.expiresAt := hle.2.2
        omega
      · obtain ⟨made, hmade, heq⟩ := Option.map_eq_some_iff.mp hnew
        exact hother made hmade (congrArg Prod.fst heq).symm
    | rotated draws now hdone =>
      cases hr : q.credentials.authenticateAndRotate h draws now issued.grant.token .reconnect q.reconnectTtl with
      | none => simp [authenticateAndRotateReconnect, hr] at hdone
      | some answer =>
        obtain ⟨result, v'⟩ := answer
        have happly : (ReconnectOp.apply h (.rotate draws now issued.grant.token) q).credentials = v' := by
          simp [ReconnectOp.apply, authenticateAndRotateReconnect, hr]
        rw [happly] at hk
        rcases CredentialVault.authenticateAndRotate_cases hbounded hr with ⟨_, rfl, hnone⟩ | ⟨stored, made, _, rfl, hmade⟩
        · have hk : (q.credentials.expireAt now).book (h.tokenVerifier issued.grant.token) = some s := hk
          rw [hnone] at hk
          cases hk
        · rw [hmade.book_eq, if_neg (hother made (by simp [ReconnectOp.issued, hr, Except.toOption]))] at hk
          exact (CredentialVault.book_struck.mp (CredentialVault.book_expireAt.mp hk).1).1 rfl
    | superseded draws now hrouted hdone =>
      obtain ⟨route, hroute⟩ := Option.isSome_iff_exists.mp hrouted
      cases hr : (q.credentials.revokePrincipal issued.principal).issue h draws now issued.principal ⟨route.tableId, .reconnect⟩
          q.reconnectTtl with
      | none => simp [issueReconnectCredential, hroute, hr] at hdone
      | some answer =>
        obtain ⟨result, v'⟩ := answer
        have happly : (ReconnectOp.apply h (.issue draws now issued.principal) q).credentials = v' := by
          simp [ReconnectOp.apply, issueReconnectCredential, hroute, hr]
        rw [happly] at hk
        have hrevoked : ((q.credentials.revokePrincipal issued.principal).expireAt now).book
            (h.tokenVerifier issued.grant.token) = some s := by
          rcases CredentialVault.issue_cases hr with ⟨_, rfl, _⟩ | ⟨made, rfl, hmade⟩
          · exact hk
          · rwa [hmade.book_eq, if_neg (hother made (by simp [ReconnectOp.issued, hroute, hr, Except.toOption]))] at hk
        exact (CredentialVault.book_revokePrincipal.mp (CredentialVault.book_expireAt.mp hrevoked).1).2 hle.2.1

theorem Spends.refuses (hempty : ∀ k, r.credentials.book k = none) (hv : r.credentials.Bounded capacity)
    {before after : List ReconnectOp} (hc : CollisionFree h tokens (r.issuedBy h (before ++ op :: after)))
    (hi : issued ∈ r.issuedBy h before) (hs : Spends h (r.reconnects h before) issued op) :
    Refuses h (r.reconnects h (before ++ op :: after)) issued.grant.token := by
  have hsplit : before ++ op :: after = (before ++ [op]) ++ after := by simp
  rw [hsplit] at hc ⊢
  have hmade := issuedBy_append (h := h) (r := r) (before ++ [op]) after
  have hnow : CollisionFree h tokens (r.issuedBy h (before ++ [op])) := by
    refine ⟨hc.hash, fun i hi => hc.known i ?_, ?_⟩
    · rw [hmade]
      exact List.mem_append_left _ hi
    · have hrandom := hc.random
      rw [hmade, List.map_append] at hrandom
      exact (List.nodup_append'.mp hrandom).1
  have hgone := hs.struck hempty hv hnow hi
  refine refuses_of_gone ?_
  rw [reconnects_append]
  refine (reconnects_run (reconnects_run hv (before ++ [op])).2 after).1.gone hgone fun hagain => ?_
  -- a verifier made out once is not made out again
  have hkeys := hc.keys
  rw [hmade, List.map_append, List.map_append] at hkeys
  refine (List.nodup_append'.mp hkeys).2.2 ?_ hagain
  rw [issuedBy_append, List.map_append, List.map_append]
  exact List.mem_append_left _ (List.mem_map_of_mem (List.mem_map_of_mem hi))

theorem checkScope_ok {principal p : GuestSessionId} {scope : CredentialScope} {α : Type} {a b : α} {f : α → GuestSessionId}
    (hf : f a = principal) (hok : ((r.checkScope principal scope).map fun () => a) = .ok b) (hp : f b = p) : principal = p := by
  cases hs : r.checkScope principal scope with
  | error e =>
    rw [hs] at hok
    cases hok
  | ok u =>
    rw [hs] at hok
    cases hok
    exact hf.symm.trans hp

/-- What holds of the credentials after a run. -/
structure SingleUse (h : Hashes) (capacity : Nat) (tokens : Set String) (r : TableRegistry) (ops : List ReconnectOp) : Prop where
  sole : Tickets.Sole StoredCredential.principal (r.reconnects h ops).credentials.book
  bounded : (r.reconnects h ops).credentials.entries.size ≤ capacity
  spent : ∀ before op after, ops = before ++ op :: after → ∀ issued ∈ r.issuedBy h before,
    Spends h (r.reconnects h before) issued op → Refuses h (r.reconnects h ops) issued.grant.token
  /-- A rotation of a stored token that has not expired refuses for its route alone. -/
  rotates : ∀ token now stored, (r.reconnects h ops).credentials.book (h.tokenVerifier token) = some stored →
    now < stored.expiresAt → ∀ draws result r',
    (r.reconnects h ops).authenticateAndRotateReconnect h draws now token = some (result, r') →
    ∃ grant, result = ((r.reconnects h ops).checkScope stored.principal stored.scope).map fun () => (stored.principal, grant)
  identified : ∀ token ∈ tokens, ∀ now principal, ((r.reconnects h ops).identifyReconnect h now token).1 = .ok principal →
    ∃ issued ∈ r.issuedBy h ops, issued.grant.token = token ∧ issued.principal = principal ∧ now < issued.expiresAt
  rotated : ∀ token ∈ tokens, ∀ draws now principal grant r',
    (r.reconnects h ops).authenticateAndRotateReconnect h draws now token = some (.ok (principal, grant), r') →
    ∃ issued ∈ r.issuedBy h ops, issued.grant.token = token ∧ issued.principal = principal ∧ now < issued.expiresAt

/-- A live token is one issued in the run, and speaks for whom it was issued to. -/
theorem owner_of_live (hempty : ∀ k, r.credentials.book k = none) (hv : r.credentials.Bounded capacity)
    (hc : CollisionFree h tokens (r.issuedBy h ops)) (ht : token ∈ tokens) {now : Nat} {stored : StoredCredential}
    (hk : ((r.reconnects h ops).credentials.expireAt now).book (h.tokenVerifier token) = some stored) :
    ∃ issued ∈ r.issuedBy h ops, issued.grant.token = token ∧ issued.principal = stored.principal ∧ now < issued.expiresAt := by
  obtain ⟨hbook, hlater⟩ := CredentialVault.book_expireAt.mp hk
  obtain ⟨issued, hmem, hkey, hle⟩ := origin_of_live hempty hv hbook
  exact ⟨issued, hmem, hc.hash (hc.known _ hmem) ht hkey, hle.2.1.symm, hlater.trans_le hle.2.2⟩

theorem reconnects_single_use (h : Hashes) (r : TableRegistry) (capacity : Nat)
    (hnew : CredentialVault.new capacity = .ok r.credentials) (ops : List ReconnectOp) (tokens : Set String)
    (hc : CollisionFree h tokens (r.issuedBy h ops)) : SingleUse h capacity tokens r ops := by
  have hvault : r.credentials = ⟨capacity, .empty, 0, 0, 0⟩ := by
    unfold CredentialVault.new at hnew
    split at hnew
    · cases hnew
    · exact (Except.ok.inj hnew).symm
  have hempty : ∀ k, r.credentials.book k = none := fun k => by rw [hvault]; rfl
  have hv : r.credentials.Bounded capacity := by
    refine ⟨by rw [hvault], by rw [hvault]; exact Nat.zero_le _, fun k s hk => ?_⟩
    rw [hempty] at hk
    cases hk
  obtain ⟨hrun, hbounded⟩ := reconnects_run (h := h) hv ops
  refine ⟨hrun.sole StoredCredential.personal fun k a k' a' hk => ?_, hbounded.size, ?_, ?_, ?_, ?_⟩
  · rw [hempty] at hk
    cases hk
  · rintro before op after rfl issued hi hs
    exact hs.refuses hempty hv hc hi
  · intro token now stored hbook hlater draws result r' hrotate
    obtain ⟨⟨answer, v'⟩, hr, heq⟩ := Option.map_eq_some_iff.mp hrotate
    have hkept := CredentialVault.book_expireAt.mpr ⟨hbook, hlater⟩
    rcases CredentialVault.authenticateAndRotate_cases hbounded hr with ⟨_, _, hnone⟩ | ⟨stored', made, hfind, rfl, hmade⟩
    · rw [hkept] at hnone
      cases hnone
    · obtain rfl : stored = stored' := Option.some.inj (hkept.symm.trans hfind)
      have hscope : made.scope = stored.scope := congrArg StoredCredential.scope hmade.stored
      have hprincipal : made.principal = stored.principal := congrArg StoredCredential.principal hmade.stored
      cases heq
      refine ⟨made.grant, ?_⟩
      dsimp only
      rw [hscope, hprincipal]
  · intro token ht now principal hok
    unfold identifyReconnect CredentialVault.authenticate at hok
    dsimp only at hok
    cases hfind : ((r.reconnects h ops).credentials.expireAt now).entries.find? (h.tokenVerifier token) with
    | none =>
      rw [hfind] at hok
      cases hok
    | some stored =>
      have hrole := (hbounded.expireAt now).role _ _ hfind
      simp only [hfind, hrole, if_true] at hok
      obtain ⟨issued, hmem, htoken, hprincipal, hlater⟩ := owner_of_live hempty hv hc ht hfind
      exact ⟨issued, hmem, htoken, hprincipal.trans (checkScope_ok (f := id) rfl hok rfl), hlater⟩
  · intro token ht draws now principal grant r' hrotate
    obtain ⟨⟨answer, v'⟩, hr, heq⟩ := Option.map_eq_some_iff.mp hrotate
    rcases CredentialVault.authenticateAndRotate_cases hbounded hr with ⟨rfl, _, _⟩ | ⟨stored, made, hfind, rfl, hmade⟩
    · cases heq
    · obtain ⟨issued, hmem, htoken, hprincipal, hlater⟩ := owner_of_live hempty hv hc ht hfind
      have hsame : made.principal = stored.principal := congrArg StoredCredential.principal hmade.stored
      have hok := congrArg Prod.fst heq
      dsimp only at hok
      have hspeaks := checkScope_ok (f := Prod.fst) rfl hok rfl
      exact ⟨issued, hmem, htoken, hprincipal.trans (hsame.symm.trans hspeaks), hlater⟩

end spent

/-! ### One rotation -/

/-- The digests of two tokens, and zeros. -/
def sampleHashes : Hashes where
  sha256 message :=
    if message = tokenDomain ++ textBytes (hex (List.replicate 32 1)) then
      [3, 142, 62, 108, 111, 228, 110, 215, 220, 8, 67, 103, 79, 79, 125, 203, 97, 12, 37, 35, 95, 175, 181, 61, 112, 55, 177,
        42, 198, 253, 23, 92]
    else if message = tokenDomain ++ textBytes (hex (List.replicate 32 2)) then
      [10, 125, 172, 221, 33, 35, 17, 130, 126, 135, 155, 125, 189, 29, 92, 44, 244, 14, 192, 223, 199, 206, 179, 4, 41, 43, 183,
        235, 121, 69, 99, 171]
    else List.replicate 32 0
  argon2id _ _ := List.replicate 32 0
  sha256_length message := by
    split
    · rfl
    · split <;> rfl
  argon2id_length _ _ := List.length_replicate

/-- A registry of four credentials, with a principal at a table. -/
def sampleRegistry : TableRegistry :=
  ⟨1, 2, 2, 1, 0, .empty, OrdMap.empty.insert ⟨"ann"⟩ ⟨⟨1⟩, ⟨1⟩, 0⟩, .empty, .empty, ⟨4, .empty, 0, 0, 0⟩, .empty, 300000⟩

/-- A token is issued, rotated and shown again after a restart. -/
def rotatedOnce : List ReconnectOp :=
  [.issue [List.replicate 32 1] 0 ⟨"ann"⟩, .rotate [List.replicate 32 2] 1000 (hex (List.replicate 32 1)), .restart 2500,
    .identify 3000 (hex (List.replicate 32 1))]

theorem reconnects_single_use_rotated :
    SingleUse sampleHashes 4 {hex (List.replicate 32 1), hex (List.replicate 32 2)} sampleRegistry rotatedOnce := by
  have hissued : (sampleRegistry.issuedBy sampleHashes rotatedOnce).map (·.grant.token) =
      [hex (List.replicate 32 1), hex (List.replicate 32 2)] := by decide +kernel
  refine reconnects_single_use sampleHashes sampleRegistry 4 rfl rotatedOnce _ ⟨?_, fun issued hi => ?_, ?_⟩
  · have hne : sampleHashes.tokenVerifier (hex (List.replicate 32 1)) ≠
        sampleHashes.tokenVerifier (hex (List.replicate 32 2)) := by decide +kernel
    rintro a (rfl | rfl) b (rfl | rfl) heq
    · rfl
    · exact absurd heq hne
    · exact absurd heq.symm hne
    · rfl
  · have hmem := List.mem_map_of_mem (f := fun i : IssuedCredential => i.grant.token) hi
    rw [hissued] at hmem
    simpa using hmem
  · rw [hissued]
    decide +kernel

end TableRegistry

end OpenFelt
