/-
  OpenFelt.Registry.Vault — what each call leaves in the credential vault
  (`src/credentials.rs`).

  A vault is a book of tickets (`book`), and `issue` the desk: `Issued.turn` and
  `rotate_turn` say that a credential made out is the only one of its principal,
  `authenticateAndRotate_cases` that a stored token finds room for the next one, and
  `restore_ok` that a restart cuts credentials to whole seconds.
-/

import OpenFelt.Lib.Tickets
import OpenFelt.Registry.Credentials

namespace OpenFelt

/-- A credential cut short: to the second, by a restart. -/
instance : Preorder StoredCredential where
  le a b := a.scope = b.scope ∧ a.principal = b.principal ∧ a.expiresAt ≤ b.expiresAt
  le_refl _ := ⟨rfl, rfl, Nat.le_refl _⟩
  le_trans _ _ _ h h' := ⟨h.1.trans h'.1, h.2.1.trans h'.2.1, h.2.2.trans h'.2.2⟩

theorem StoredCredential.personal : Tickets.Personal StoredCredential.principal := fun _ _ h => h.2.1

/-- What the vault keeps of a credential it has issued. -/
def IssuedCredential.stored (issued : IssuedCredential) : StoredCredential := ⟨issued.expiresAt, issued.scope, issued.principal⟩

/-! ## The vault -/

namespace CredentialVault

/-- The vault as a book of credentials under their verifiers. -/
def book (v : CredentialVault) : String → Option StoredCredential := fun verifier => v.entries.find? verifier

section reads
variable {v v' : CredentialVault} {k token : String} {s : StoredCredential} {now ttl : Nat} {h : Hashes}
  {draws : List (List UInt8)} {principal : GuestSessionId} {scope : CredentialScope}
  {result : Except CredentialError IssuedCredential}

theorem find_filterEntries (p : StoredCredential → Bool) :
    (v.filterEntries p).find? k = some s ↔ v.book k = some s ∧ p s = true := by
  rw [filterEntries, OrdMap.find_filterKey, book]
  cases v.entries.find? k with
  | none => simp
  | some s' =>
    simp only [Option.any_some, Option.some.injEq]
    by_cases hp : p s' = true
    · rw [if_pos hp, Option.some.injEq]
      exact ⟨fun e => ⟨e, e ▸ hp⟩, fun e => e.1⟩
    · rw [if_neg hp]
      constructor
      · intro e
        cases e
      · intro ⟨e, hs⟩
        exact absurd (e ▸ hs) hp

theorem book_expireAt : (v.expireAt now).book k = some s ↔ v.book k = some s ∧ now < s.expiresAt := by
  rw [book, expireAt, find_filterEntries, decide_eq_true_eq]

theorem book_revokePrincipal : (v.revokePrincipal principal).book k = some s ↔ v.book k = some s ∧ s.principal ≠ principal := by
  rw [book, revokePrincipal, find_filterEntries, decide_eq_true_eq]

theorem size_expireAt_le (v : CredentialVault) (now : Nat) : (v.expireAt now).entries.size ≤ v.entries.size :=
  OrdMap.size_filterKey_le _ _

/-- A vault within `capacity`, of reconnect credentials only. -/
structure Bounded (capacity : Nat) (v : CredentialVault) : Prop where
  limit : v.capacity = capacity
  size : v.entries.size ≤ capacity
  role : ∀ k s, v.book k = some s → s.scope.role = .reconnect

/-- A part of a bounded vault. -/
theorem Bounded.part {capacity : Nat} (hv : v.Bounded capacity) (hcapacity : v'.capacity = v.capacity)
    (hsize : v'.entries.size ≤ v.entries.size) (hbook : ∀ k s, v'.book k = some s → v.book k = some s) : v'.Bounded capacity :=
  ⟨hcapacity.trans hv.limit, hsize.trans hv.size, fun k s hk => hv.role k s (hbook k s hk)⟩

theorem Bounded.expireAt {capacity : Nat} (hv : v.Bounded capacity) (now : Nat) : (v.expireAt now).Bounded capacity :=
  hv.part rfl (v.size_expireAt_le now) fun _ _ hk => (book_expireAt.mp hk).1

theorem Bounded.refuse {capacity : Nat} (hv : v.Bounded capacity) : v.refuse.Bounded capacity :=
  hv.part rfl le_rfl fun _ _ hk => hk

/-! ### Issuing -/

/-- A credential made out by `issue`, in what the vault keeps after its sweep. -/
structure Issued (h : Hashes) (v : CredentialVault) (now : Nat) (principal : GuestSessionId) (scope : CredentialScope) (ttl : Nat)
    (issued : IssuedCredential) (v' : CredentialVault) : Prop where
  stored : issued.stored = ⟨now + ttl, scope, principal⟩
  room : (v.expireAt now).entries.size < v.capacity
  capacity : v'.capacity = v.capacity
  entries : v'.entries = (v.expireAt now).entries.insert (h.tokenVerifier issued.grant.token) issued.stored

theorem drawToken_verifier {verifier : String} (hd : v.drawToken h draws = some (token, verifier)) :
    verifier = h.tokenVerifier token := by
  induction draws with
  | nil => cases hd
  | cons bytes rest ih =>
    rw [drawToken] at hd
    split at hd
    · exact ih hd
    · cases hd
      rfl

theorem issue_cases (hi : v.issue h draws now principal scope ttl = some (result, v')) :
    (result = .error .capacityReached ∧ v' = v.expireAt now ∧ v.capacity ≤ (v.expireAt now).entries.size) ∨
      ∃ issued, result = .ok issued ∧ Issued h v now principal scope ttl issued v' := by
  unfold issue at hi
  dsimp only at hi
  by_cases hfull : (v.expireAt now).capacity ≤ (v.expireAt now).entries.size
  · rw [if_pos hfull] at hi
    cases hi
    exact Or.inl ⟨rfl, rfl, hfull⟩
  · rw [if_neg hfull] at hi
    obtain ⟨⟨token, verifier⟩, hdraw, he⟩ := Option.map_eq_some_iff.mp hi
    cases he
    have hverifier := drawToken_verifier hdraw
    exact Or.inr ⟨_, rfl, rfl, Nat.lt_of_not_le hfull, rfl, by rw [hverifier]; rfl⟩

theorem Issued.book_eq {issued : IssuedCredential} (hi : Issued h v now principal scope ttl issued v') (k : String) :
    v'.book k = if k = h.tokenVerifier issued.grant.token then some issued.stored else (v.expireAt now).book k := by
  rw [book, hi.entries, OrdMap.find_insert]
  rfl

/-- Issuing to a principal without a credential is a turn at the desk. -/
theorem Issued.turn {issued : IssuedCredential} {before : CredentialVault} (hi : Issued h v now principal scope ttl issued v')
    (hpart : ∀ k s, v.book k = some s → before.book k = some s)
    (hnone : Tickets.Sole StoredCredential.principal before.book → ∀ k s, v.book k = some s → s.principal ≠ principal) :
    Tickets.Turn StoredCredential.principal before.book (some (h.tokenVerifier issued.grant.token, issued.stored)) v'.book := by
  constructor
  · intro k s hk
    rw [hi.book_eq] at hk
    by_cases hnew : k = h.tokenVerifier issued.grant.token
    · rw [if_pos hnew, Option.some.injEq] at hk
      exact Or.inl (by rw [hnew, hk])
    · rw [if_neg hnew] at hk
      exact Or.inr ⟨s, hpart k s (book_expireAt.mp hk).1, le_rfl⟩
  · intro k s hnew hsole k' s' hk' hsame
    cases hnew
    by_contra hne
    rw [hi.book_eq, if_neg hne] at hk'
    refine hnone hsole k' s' (book_expireAt.mp hk').1 ?_
    rw [hsame, hi.stored]

/-- What `issue` leaves is new or unexpired. -/
theorem Issued.swept {issued : IssuedCredential} (hi : Issued h v now principal scope ttl issued v') (hk : v'.book k = some s) :
    now < s.expiresAt ∨ some (h.tokenVerifier issued.grant.token, issued.stored) = some (k, s) := by
  rw [hi.book_eq] at hk
  split at hk
  · rename_i hkey
    cases hk
    exact Or.inr (by rw [hkey])
  · exact Or.inl (book_expireAt.mp hk).2

theorem Issued.bounded {capacity : Nat} {issued : IssuedCredential} (hi : Issued h v now principal scope ttl issued v')
    (hv : v.Bounded capacity) (hrole : scope.role = .reconnect) : v'.Bounded capacity := by
  refine ⟨hi.capacity.trans hv.limit, ?_, ?_⟩
  · have hroom := hi.room
    have hsize := OrdMap.size_insert_le (v.expireAt now).entries (h.tokenVerifier issued.grant.token) issued.stored
    rw [hv.limit] at hroom
    rw [hi.entries]
    omega
  · intro k s hk
    rw [hi.book_eq] at hk
    split at hk
    · cases hk
      rw [hi.stored]
      exact hrole
    · exact (hv.expireAt now).role k s hk

/-! ### Rotating and authenticating -/

/-- The vault as a rotation of a stored token leaves it to `issue`. -/
def struck (h : Hashes) (v : CredentialVault) (now : Nat) (token : String) : CredentialVault :=
  { v.expireAt now with entries := (v.expireAt now).entries.erase (h.tokenVerifier token) }

theorem book_struck : (v.struck h now token).book k = some s ↔
    k ≠ h.tokenVerifier token ∧ v.book k = some s ∧ now < s.expiresAt := by
  rw [book, struck, OrdMap.find_erase, ← book_expireAt, book]
  by_cases hk : k = h.tokenVerifier token
  · simp [hk]
  · simp [hk]

theorem Bounded.struck {capacity : Nat} (hv : v.Bounded capacity) : (v.struck h now token).Bounded capacity :=
  hv.part rfl ((OrdMap.size_filterKey_le _ _).trans (v.size_expireAt_le now)) fun _ _ hk => (book_struck.mp hk).2.1

/-- A rotation refuses a token the sweep has not left, and issues for one it has. -/
theorem authenticateAndRotate_cases {capacity : Nat} (hv : v.Bounded capacity)
    (hr : v.authenticateAndRotate h draws now token .reconnect ttl = some (result, v')) :
    (result = .error .unknownOrExpired ∧ v' = (v.expireAt now).refuse ∧ (v.expireAt now).book (h.tokenVerifier token) = none) ∨
      ∃ stored issued, (v.expireAt now).book (h.tokenVerifier token) = some stored ∧ result = .ok issued ∧
        Issued h (v.struck h now token) now stored.principal stored.scope ttl issued v' := by
  unfold authenticateAndRotate at hr
  dsimp only at hr
  cases hfind : (v.expireAt now).entries.find? (h.tokenVerifier token) with
  | none =>
    rw [hfind] at hr
    cases hr
    exact Or.inl ⟨rfl, rfl, hfind⟩
  | some stored =>
    rw [hfind] at hr
    have hrole := (hv.expireAt now).role _ _ hfind
    simp only [hrole, ne_eq, not_true_eq_false, if_false] at hr
    rcases issue_cases hr with ⟨_, _, hfull⟩ | ⟨issued, hresult, hissued⟩
    · -- the token's own place is free
      have hfree := OrdMap.size_erase hfind
      have hswept := (v.struck h now token).size_expireAt_le now
      have hsize := (hv.expireAt now).size
      have hlimit : (v.expireAt now).capacity = capacity := (hv.expireAt now).limit
      have hfull : (v.expireAt now).capacity ≤ ((v.struck h now token).expireAt now).entries.size := hfull
      have hstruck : (v.struck h now token).entries = (v.expireAt now).entries.erase (h.tokenVerifier token) := rfl
      rw [hstruck] at hswept
      omega
    · exact Or.inr ⟨stored, issued, hfind, hresult, hissued⟩

theorem rotate_turn {capacity : Nat} {stored : StoredCredential} {issued : IssuedCredential} (hv : v.Bounded capacity)
    (hfind : (v.expireAt now).book (h.tokenVerifier token) = some stored)
    (hi : Issued h (v.struck h now token) now stored.principal stored.scope ttl issued v') :
    Tickets.Turn StoredCredential.principal v.book (some (h.tokenVerifier issued.grant.token, issued.stored)) v'.book ∧
      v'.Bounded capacity := by
  refine ⟨hi.turn (fun k s hk => (book_struck.mp hk).2.1) fun hsole k s hk hsame => ?_,
    hi.bounded hv.struck ((hv.expireAt now).role _ _ hfind)⟩
  obtain ⟨hne, hbook, _⟩ := book_struck.mp hk
  exact hne (hsole k s _ _ hbook (book_expireAt.mp hfind).1 hsame)

theorem authenticate_snd (v : CredentialVault) (h : Hashes) (now : Nat) (token : String) (role : CredentialRole) :
    (v.authenticate h now token role).2.book = (v.expireAt now).book ∧
      ((v.authenticate h now token role).2 = v.expireAt now ∨ (v.authenticate h now token role).2 = (v.expireAt now).refuse) := by
  unfold authenticate
  dsimp only
  split
  · exact ⟨rfl, Or.inr rfl⟩
  · split
    · exact ⟨rfl, Or.inl rfl⟩
    · exact ⟨rfl, Or.inr rfl⟩

/-! ### Durable records -/

/-- Each entry restored stood in the vault or comes from a record that has not expired. -/
theorem restoreRecords_ok {records : List DurableCredentialRecord} (hr : restoreRecords now records v = .ok v') :
    v'.capacity = v.capacity ∧ v'.entries.size ≤ v.entries.size + records.length ∧
      ∀ k s, v'.book k = some s → v.book k = some s ∨ ∃ record ∈ records, record.verifierHex = k ∧ now < s.expiresAt ∧
        s.expiresAt = record.expiresAtUnixSeconds * 1000 ∧ s.scope = record.scope ∧ s.principal.value = record.principalId := by
  induction records generalizing v with
  | nil =>
    cases hr
    exact ⟨rfl, le_rfl, fun k s hk => Or.inl hk⟩
  | cons record rest ih =>
    rw [restoreRecords] at hr
    split at hr
    · cases hr
    cases hid : GuestSessionId.new record.principalId with
    | error e =>
      rw [hid] at hr
      cases hr
    | ok principal =>
      rw [hid] at hr
      dsimp only at hr
      have hvalue : principal.value = record.principalId := by
        unfold GuestSessionId.new at hid
        split at hid
        · cases hid
        · cases hid
          rfl
      split at hr
      · cases hr
      split at hr
      · obtain ⟨hlimit, hsize, hbook⟩ := ih hr
        refine ⟨hlimit, by rw [List.length_cons]; omega, fun k s hk => (hbook k s hk).imp_right ?_⟩
        intro ⟨r, hmem, hrest⟩
        exact ⟨r, List.mem_cons_of_mem _ hmem, hrest⟩
      rename_i hlater
      split at hr
      · cases hr
      · obtain ⟨hlimit, hsize, hbook⟩ := ih hr
        have hinsert := OrdMap.size_insert_le v.entries record.verifierHex
          ⟨record.expiresAtUnixSeconds * 1000, record.scope, principal⟩
        refine ⟨hlimit, by rw [List.length_cons]; dsimp only at hsize; omega, fun k s hk => ?_⟩
        rcases hbook k s hk with hk | ⟨r, hmem, hrest⟩
        · rw [book, OrdMap.find_insert] at hk
          split at hk
          · rename_i hkey
            cases hk
            exact Or.inr ⟨record, List.mem_cons_self, hkey.symm, Nat.lt_of_not_le hlater, rfl, rfl, hvalue⟩
          · exact Or.inl hk
        · exact Or.inr ⟨r, List.mem_cons_of_mem _ hmem, hrest⟩

/-- A restart keeps what has not expired, cut to whole seconds. -/
theorem restore_ok (hr : restore now v.capacity v.durableRecords = .ok v') : v'.capacity = v.capacity ∧
    v'.entries.size ≤ v.entries.size ∧ ∀ k s', v'.book k = some s' → now < s'.expiresAt ∧ ∃ s, v.book k = some s ∧ s' ≤ s := by
  unfold restore at hr
  cases hnew : new v.capacity with
  | error e =>
    rw [hnew] at hr
    cases hr
  | ok fresh =>
    rw [hnew] at hr
    dsimp only at hr
    split at hr
    · cases hr
    have hfresh : fresh = ⟨v.capacity, .empty, 0, 0, 0⟩ := by
      unfold new at hnew
      split at hnew
      · cases hnew
      · exact (Except.ok.inj hnew).symm
    obtain ⟨hlimit, hsize, hbook⟩ := restoreRecords_ok hr
    rw [hfresh] at hlimit hsize hbook
    have hlength : v.durableRecords.length = v.entries.size := List.length_map _
    have hempty : (OrdMap.empty : OrdMap String StoredCredential).size = 0 := rfl
    refine ⟨hlimit, by dsimp only at hsize; omega, fun k s' hk => ?_⟩
    rcases hbook k s' hk with hk | ⟨record, hmem, rfl, hlater, hexpires, hscope, hprincipal⟩
    · cases hk
    · obtain ⟨⟨verifier, s⟩, hentry, rfl⟩ := List.mem_map.mp hmem
      refine ⟨hlater, s, OrdMap.mem_entries.mp hentry, hscope, ?_, ?_⟩
      · have hvalue : s'.principal.value = s.principal.value := hprincipal
        cases hs' : s'.principal
        cases hs : s.principal
        rw [hs', hs] at hvalue
        exact congrArg GuestSessionId.mk hvalue
      · have hseconds : s'.expiresAt = s.expiresAt / 1000 * 1000 := hexpires
        omega

end reads

end CredentialVault

end OpenFelt
