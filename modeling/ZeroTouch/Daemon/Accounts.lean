import ZeroTouch.Daemon.HotConfig
import ZeroTouch.Gnmi.Executor
/-!
# Looking up an account

`ZeroTouchClient::lookup_account`: the account of `admin` is two keys of
the data store, every other one an element of the JSON array in a third.
Each key is read on its own, and any read may fail. A hash that cannot be
read refuses the login, but `admin`'s right is `Admin` unless it is read
to be `Viewer`, so where that read fails a viewer is an administrator. And
an element whose `id` is not a text throws out of the loop, so that the
accounts behind it are not found.
-/

namespace ZeroTouch

/-- `json`: a JSON document, its types told apart. -/
inductive JsonValue
  | null
  | bool (b : Bool)
  | number (literal : Text)
  | string (s : Text)
  | array (elems : List JsonValue)
  | object (members : List (Text × JsonValue))

/-- The members of a JSON object. -/
abbrev Members : Type := List (Text × JsonValue)

/-- `u.value(key, dflt)` of an object: nothing where it throws, which it
does where the member is there and not a text. -/
def memberText (u : Members) (key : String) (dflt : Text) : Option Text :=
  match u.lookup key.toList with
  | none => some dflt
  | some (.string s) => some s
  | some _ => none

/-- A key of `auth.users.*`. -/
inductive AuthKey
  /-- `auth.users.admin.password.hash`. -/
  | adminHash
  /-- `auth.users.admin.access`. -/
  | adminAccess
  /-- `auth.users.accounts`. -/
  | accounts
  deriving DecidableEq, Repr

/-- `smsctl::Account`. -/
structure Account where
  id : Text
  hash : Text
  access : Text
  deriving DecidableEq, Repr

/-- The loop over the accounts. -/
def scanAccounts (id : Text) : List JsonValue → Option Account
  | [] => none
  | .object u :: arr =>
    match memberText u "id" [] with
    -- the handler stands around the loop
    | none => none
    | some name =>
      if name ≠ id then scanAccounts id arr
      else
        match memberText u "hash" [], memberText u "access" "Viewer".toList with
        | some hash, some access => if hash.isEmpty then none else some ⟨id, hash, access⟩
        | _, _ => none
  | _ :: arr => scanAccounts id arr

open DsVariant (conversions)

section

variable {V : Type} (C : DsConversions V) (parse : Text → Option JsonValue)

/-- **`ZeroTouchClient::lookup_account`**: the account, where it returns
true. `got` is what each read gives: nothing where it fails, or finds no
value. `parse` is `json::parse`, with nothing where it throws. -/
def lookupAccount (got : AuthKey → Option V) (id : Text) : Option Account :=
  if id = "admin".toList then
    match (got .adminHash).bind C.toText with
    | none => none
    | some hash =>
      if hash.isEmpty then none
      else
        let access :=
          if (got .adminAccess).bind C.toText = some "Viewer".toList then "Viewer".toList
          else "Admin".toList
        some ⟨"admin".toList, hash, access⟩
  else
    match (got .accounts).bind C.toText with
    | none => none
    | some s =>
      if s.isEmpty then none
      else
        match parse s with
        | some (.array arr) => scanAccounts id arr
        | _ => none

/-- What the reads of a store give, those that succeed. -/
def readsOf (store : AuthKey → Option V) (succeeds : AuthKey → Bool) (k : AuthKey) : Option V :=
  if succeeds k then store k else none

/-! ## The accounts of the array -/

/-- The element has this id. One without an `id` has the empty one. -/
def Named (id : Text) (e : JsonValue) : Prop := ∃ u, e = .object u ∧ memberText u "id" [] = some id

/-- The element's id is not a text. -/
def Malformed (e : JsonValue) : Prop := ∃ u, e = .object u ∧ memberText u "id" [] = none

/-- `u` is the first element with this id. -/
def FirstNamed (arr : List JsonValue) (id : Text) (u : Members) : Prop :=
  ∃ before after, arr = before ++ .object u :: after ∧ (∀ e ∈ before, ¬ Named id e) ∧
    memberText u "id" [] = some id

variable {id : Text} {arr : List JsonValue}

/-- An element with another id, and one that is no object, is passed by. -/
theorem scanAccounts_cons {e : JsonValue} (hn : ¬ Named id e) (hm : ¬ Malformed e) :
    scanAccounts id (e :: arr) = scanAccounts id arr := by
  cases e with
  | object u =>
    rw [scanAccounts]
    cases hid : memberText u "id" [] with
    | none => exact absurd ⟨u, rfl, hid⟩ hm
    | some name =>
      have hne : name ≠ id := by
        rintro rfl
        exact hn ⟨u, rfl, hid⟩
      simp only [hne, ne_eq, not_false_eq_true, if_true]
  | null => rfl
  | bool => rfl
  | number => rfl
  | string => rfl
  | array => rfl

theorem scanAccounts_malformed {e : JsonValue} (hm : Malformed e) :
    scanAccounts id (e :: arr) = none := by
  obtain ⟨u, rfl, hid⟩ := hm
  simp only [scanAccounts, hid]

theorem scanAccounts_named {u : Members} (hid : memberText u "id" [] = some id) :
    scanAccounts id (.object u :: arr) =
      match memberText u "hash" [], memberText u "access" "Viewer".toList with
      | some hash, some access => if hash.isEmpty then none else some ⟨id, hash, access⟩
      | _, _ => none := by
  simp only [scanAccounts, hid, ne_eq, not_true_eq_false, if_false]

/-- **What a scan finds** is the first element with the id. -/
theorem firstNamed_of_scan {out : Account} (h : scanAccounts id arr = some out) :
    ∃ u, FirstNamed arr id u ∧ memberText u "access" "Viewer".toList = some out.access := by
  induction arr with
  | nil => cases h
  | cons e arr ih =>
    by_cases hm : Malformed e
    · rw [scanAccounts_malformed hm] at h
      cases h
    by_cases hn : Named id e
    · obtain ⟨u, rfl, hid⟩ := hn
      refine ⟨u, ⟨[], arr, rfl, by simp, hid⟩, ?_⟩
      rw [scanAccounts_named hid] at h
      split at h
      · next hash access hhash haccess =>
        split at h
        · cases h
        · rw [haccess, ← Option.some.inj h]
      · cases h
    · rw [scanAccounts_cons hn hm] at h
      obtain ⟨u, ⟨before, after, rfl, hbefore, hid⟩, haccess⟩ := ih h
      refine ⟨u, ⟨e :: before, after, rfl, ?_, hid⟩, haccess⟩
      intro e' he'
      rcases List.mem_cons.1 he' with rfl | he'
      · exact hn
      · exact hbefore e' he'

/-- Elements with other ids are passed by unless one of them is
malformed. -/
theorem scanAccounts_append {before : List JsonValue} (hn : ∀ e ∈ before, ¬ Named id e)
    (arr : List JsonValue) :
    ((∀ e ∈ before, ¬ Malformed e) → scanAccounts id (before ++ arr) = scanAccounts id arr) ∧
      ((∃ e ∈ before, Malformed e) → scanAccounts id (before ++ arr) = none) := by
  induction before with
  | nil => simp
  | cons e before ih =>
    obtain ⟨hpass, hstop⟩ := ih fun x hx => hn x (List.mem_cons_of_mem _ hx)
    have he : ¬ Named id e := hn e (List.mem_cons_self ..)
    refine ⟨fun h => ?_, ?_⟩
    · rw [List.cons_append, scanAccounts_cons he (h e (List.mem_cons_self ..))]
      exact hpass fun x hx => h x (List.mem_cons_of_mem _ hx)
    · rintro ⟨x, hx, hmx⟩
      by_cases hm : Malformed e
      · exact scanAccounts_malformed hm
      · rw [List.cons_append, scanAccounts_cons he hm]
        rcases List.mem_cons.1 hx with rfl | hx
        · exact absurd hmx hm
        · exact hstop ⟨x, hx, hmx⟩

/-! ## The right an account is given -/

variable {C parse}

/-- **The store's record for this id grants `Admin`**: for `admin`, unless
`Viewer` is stored; for another id, where the first element with it says
so. -/
def GrantsAdmin (C : DsConversions V) (parse : Text → Option JsonValue) (store : AuthKey → Option V)
    (id : Text) : Prop :=
  if id = "admin".toList then (store .adminAccess).bind C.toText ≠ some "Viewer".toList
  else
    ∃ s arr u, (store .accounts).bind C.toText = some s ∧ parse s = some (.array arr) ∧
      FirstNamed arr id u ∧ u.lookup "access".toList = some (.string "Admin".toList)

/-- **The demoted administrator's right cannot be read**, and the hash
can. -/
def DemotionUnread (C : DsConversions V) (store : AuthKey → Option V) (succeeds : AuthKey → Bool) :
    Prop :=
  (store .adminAccess).bind C.toText = some "Viewer".toList ∧ succeeds .adminAccess = false ∧
    succeeds .adminHash = true ∧
      ∃ hash, (store .adminHash).bind C.toText = some hash ∧ hash ≠ []

/-- A read gives what is stored, or nothing. -/
theorem bind_readsOf (store : AuthKey → Option V) (succeeds : AuthKey → Bool) (k : AuthKey) :
    (readsOf store succeeds k).bind C.toText =
      if succeeds k then (store k).bind C.toText else none := by
  unfold readsOf
  split <;> rfl

theorem memberText_eq_admin {u : Members}
    (h : memberText u "access" "Viewer".toList = some "Admin".toList) :
    u.lookup "access".toList = some (.string "Admin".toList) := by
  unfold memberText at h
  split at h
  · exact absurd (Option.some.inj h) (by decide)
  · next s hs => rw [hs, Option.some.inj h]
  · cases h

/-- An account of the array has the right it is stored with, whatever
fails. -/
theorem grantsAdmin_of_accounts {store : AuthKey → Option V} {succeeds : AuthKey → Bool}
    {out : Account} (hid : id ≠ "admin".toList)
    (h : lookupAccount C parse (readsOf store succeeds) id = some out)
    (hadmin : out.access = "Admin".toList) : GrantsAdmin C parse store id := by
  rw [lookupAccount, if_neg hid, bind_readsOf] at h
  by_cases hok : succeeds .accounts = true
  · rw [if_pos hok] at h
    split at h
    · cases h
    · next s hs =>
      split at h
      · cases h
      · split at h
        · next arr harr =>
          obtain ⟨u, hfirst, haccess⟩ := firstNamed_of_scan h
          rw [hadmin] at haccess
          rw [GrantsAdmin, if_neg hid]
          exact ⟨s, arr, u, hs, harr, hfirst, memberText_eq_admin haccess⟩
        · cases h
  · rw [if_neg hok] at h
    cases h

/-- The administrator's account, where there is one, and its right. -/
theorem lookupAccount_admin (store : AuthKey → Option V) (succeeds : AuthKey → Bool)
    (out : Account) :
    lookupAccount C parse (readsOf store succeeds) "admin".toList = some out ↔
      succeeds .adminHash = true ∧
        ∃ hash, (store .adminHash).bind C.toText = some hash ∧ hash ≠ [] ∧
          out = ⟨"admin".toList, hash,
            if succeeds .adminAccess = true ∧
                (store .adminAccess).bind C.toText = some "Viewer".toList then "Viewer".toList
            else "Admin".toList⟩ := by
  rw [lookupAccount, if_pos rfl, bind_readsOf, bind_readsOf]
  have hright :
      (if succeeds .adminAccess = true then (store .adminAccess).bind C.toText else none) =
        some "Viewer".toList ↔ succeeds .adminAccess = true ∧
        (store .adminAccess).bind C.toText = some "Viewer".toList := by
    split
    · next hok => rw [and_iff_right hok]
    · next hok => exact iff_of_false (by simp) fun h => hok h.1
  by_cases hok : succeeds .adminHash = true
  · rw [if_pos hok, and_iff_right hok]
    cases (store .adminHash).bind C.toText with
    | none =>
      refine iff_of_false (Option.some_ne_none _).symm ?_
      rintro ⟨hash, hhash, -⟩
      cases hhash
    | some hash =>
      simp only [List.isEmpty_iff, hright]
      by_cases hempty : hash = []
      · rw [if_pos hempty]
        refine iff_of_false (Option.some_ne_none _).symm ?_
        rintro ⟨hash', hhash', hne, -⟩
        exact hne (Option.some.inj hhash' ▸ hempty)
      · rw [if_neg hempty, Option.some.injEq]
        constructor
        · intro hout
          exact ⟨hash, rfl, hempty, hout.symm⟩
        · rintro ⟨hash', hhash', -, hout⟩
          obtain rfl := Option.some.inj hhash'
          exact hout.symm
  · rw [if_neg hok]
    exact iff_of_false (by simp) fun h => hok h.1

/-- An account has the right its record grants, unless the demotion cannot
be read. -/
theorem grantsAdmin_of_lookup {store : AuthKey → Option V} {succeeds : AuthKey → Bool}
    {out : Account} (hread : ¬ (id = "admin".toList ∧ DemotionUnread C store succeeds))
    (h : lookupAccount C parse (readsOf store succeeds) id = some out)
    (hadmin : out.access = "Admin".toList) : GrantsAdmin C parse store id := by
  by_cases hid : id = "admin".toList
  · subst hid
    obtain ⟨hok, hash, hhash, hne, rfl⟩ := (lookupAccount_admin store succeeds out).1 h
    rw [GrantsAdmin, if_pos rfl]
    intro hviewer
    refine hread ⟨rfl, hviewer, ?_, hok, hash, hhash, hne⟩
    by_contra hsucc
    rw [Bool.not_eq_false] at hsucc
    simp only [hsucc, hviewer, and_self, if_true] at hadmin
    exact absurd hadmin (by decide)
  · exact grantsAdmin_of_accounts hid h hadmin

/-- A demotion that cannot be read is no demotion. -/
theorem lookupAccount_of_demotionUnread {store : AuthKey → Option V} {succeeds : AuthKey → Bool}
    (h : DemotionUnread C store succeeds) :
    ∃ hash, lookupAccount C parse (readsOf store succeeds) "admin".toList =
      some ⟨"admin".toList, hash, "Admin".toList⟩ := by
  obtain ⟨-, hfailed, hok, hash, hhash, hne⟩ := h
  refine ⟨hash, (lookupAccount_admin store succeeds _).2 ⟨hok, hash, hhash, hne, ?_⟩⟩
  rw [if_neg fun hread => by simp [hfailed] at hread]

/-- **When a failed read gives no right away**: whatever the store holds
and whichever reads fail, an account is `Admin` only where its record
grants it, exactly unless the administrator's demotion cannot be read. -/
theorem lookupAccount_grants_iff (store : AuthKey → Option V) (succeeds : AuthKey → Bool)
    (id : Text) :
    (∀ out, lookupAccount C parse (readsOf store succeeds) id = some out →
        out.access = "Admin".toList → GrantsAdmin C parse store id) ↔
      ¬ (id = "admin".toList ∧ DemotionUnread C store succeeds) := by
  constructor
  · rintro h ⟨rfl, hunread⟩
    obtain ⟨hash, hout⟩ : ∃ hash, lookupAccount C parse (readsOf store succeeds) "admin".toList =
        some ⟨"admin".toList, hash, "Admin".toList⟩ := lookupAccount_of_demotionUnread hunread
    have hgrants := h _ hout rfl
    rw [GrantsAdmin, if_pos rfl] at hgrants
    exact hgrants hunread.1
  · intro hread out
    exact grantsAdmin_of_lookup hread

/-- The administrator, demoted. -/
def demotedStore : AuthKey → Option DsVariant
  | .adminHash => some (.text "5e88".toList)
  | .adminAccess => some (.text "Viewer".toList)
  | .accounts => none

/-- **A viewer becomes an administrator** where the read of the right
fails. -/
theorem not_grants_demoted :
    ¬ ∀ (store : AuthKey → Option DsVariant) (succeeds : AuthKey → Bool) (id : Text)
      (out : Account),
      lookupAccount conversions (fun _ => none) (readsOf store succeeds) id = some out →
        out.access = "Admin".toList → GrantsAdmin conversions (fun _ => none) store id := by
  intro h
  have hout : lookupAccount conversions (fun _ => none)
      (readsOf demotedStore fun k => k != .adminAccess) "admin".toList =
      some ⟨"admin".toList, "5e88".toList, "Admin".toList⟩ := by
    decide
  have hgrants := h _ _ _ _ hout rfl
  rw [GrantsAdmin, if_pos rfl] at hgrants
  exact hgrants rfl

/-- `sender_access`, of the account its session was opened with. -/
def senderAccess : Option Account → Access
  | none => .none
  | some acc => if acc.access = "Admin".toList then .admin else .viewer

/-- A sender may write where the account looked up for it may. -/
theorem grantsAdmin_of_senderAccess {store : AuthKey → Option V} {succeeds : AuthKey → Bool}
    (h : senderAccess (lookupAccount C parse (readsOf store succeeds) id) = .admin) :
    GrantsAdmin C parse store id ∨ id = "admin".toList ∧ DemotionUnread C store succeeds := by
  rw [or_iff_not_imp_right]
  intro hread
  cases hout : lookupAccount C parse (readsOf store succeeds) id with
  | none =>
    rw [hout] at h
    cases h
  | some out =>
    rw [hout, senderAccess] at h
    split at h
    · next hadmin => exact grantsAdmin_of_lookup hread hout hadmin
    · cases h

/-! ## A record among others -/

/-- **A well-formed record** of this account: its id and its hash, which is
not empty, are texts, and its access is one or is not there. -/
structure Record (u : Members) (acc : Account) : Prop where
  named : u.lookup "id".toList = some (.string acc.id)
  hashed : u.lookup "hash".toList = some (.string acc.hash)
  hash_ne_nil : acc.hash ≠ []
  access : u.lookup "access".toList = some (.string acc.access) ∨
    u.lookup "access".toList = none ∧ acc.access = "Viewer".toList

/-- A well-formed record is found where the scan comes to it. -/
theorem Record.scan {u : Members} {acc : Account} (hu : Record u acc) :
    scanAccounts acc.id (.object u :: arr) = some acc := by
  have hid : memberText u "id" [] = some acc.id := by rw [memberText, hu.named]
  have hhash : memberText u "hash" [] = some acc.hash := by rw [memberText, hu.hashed]
  have haccess : memberText u "access" "Viewer".toList = some acc.access := by
    rcases hu.access with h | ⟨h, hviewer⟩
    · rw [memberText, h]
    · rw [memberText, h, hviewer]
  rw [scanAccounts_named hid, hhash, haccess]
  simp only [List.isEmpty_iff, hu.hash_ne_nil, if_false]

/-- **When a malformed record affects only itself**: the first record of an
account, well-formed, is found exactly where no element ahead of it is an
object whose id is not a text. -/
theorem lookupAccount_record_iff {got : AuthKey → Option V} {s : Text}
    {before after : List JsonValue} {u : Members} {acc : Account} (hempty : parse [] = none)
    (hread : (got .accounts).bind C.toText = some s)
    (hparse : parse s = some (.array (before ++ .object u :: after))) (hu : Record u acc)
    (hid : acc.id ≠ "admin".toList) (hfirst : ∀ e ∈ before, ¬ Named acc.id e) :
    lookupAccount C parse got acc.id = some acc ↔ ∀ e ∈ before, ¬ Malformed e := by
  have hne : s ≠ [] := by
    rintro rfl
    rw [hempty] at hparse
    cases hparse
  have hlookup : lookupAccount C parse got acc.id =
      scanAccounts acc.id (before ++ .object u :: after) := by
    simp only [lookupAccount, hid, if_false, hread, List.isEmpty_iff, hne, hparse]
  obtain ⟨hpass, hstop⟩ := scanAccounts_append hfirst (.object u :: after)
  rw [hlookup]
  constructor
  · intro h e he hm
    rw [hstop ⟨e, he, hm⟩] at h
    cases h
  · intro h
    rw [hpass h, hu.scan]

end

/-! ## Two lists of accounts -/

/-- A record of bob's. -/
def bobRecord : Members :=
  [("id".toList, .string "bob".toList), ("hash".toList, .string "5e88".toList)]

/-- Bob's account. -/
def bob : Account := ⟨"bob".toList, "5e88".toList, "Viewer".toList⟩

theorem bobRecord_record : Record bobRecord bob :=
  ⟨rfl, rfl, by decide, .inr ⟨rfl, rfl⟩⟩

/-- Bob's record behind one of alice's. -/
def wellFormed : Text :=
  "[\x7b\"id\":\"alice\"\x7d,\x7b\"id\":\"bob\",\"hash\":\"5e88\"\x7d]".toList

/-- Bob's record behind one whose id is a number. -/
def malformed : Text := "[\x7b\"id\":7\x7d,\x7b\"id\":\"bob\",\"hash\":\"5e88\"\x7d]".toList

/-- `json::parse` on these two documents. -/
def parseTwo (s : Text) : Option JsonValue :=
  if s = wellFormed then
    some (.array [.object [("id".toList, .string "alice".toList)], .object bobRecord])
  else if s = malformed then
    some (.array [.object [("id".toList, .number "7".toList)], .object bobRecord])
  else none

/-- A store with this list of accounts. -/
def accountsStore (document : Text) : AuthKey → Option DsVariant
  | .accounts => some (.text document)
  | _ => none

theorem parseTwo_wellFormed :
    parseTwo wellFormed = some (.array
      ([.object [("id".toList, .string "alice".toList)]] ++ .object bobRecord :: [])) := by
  rw [parseTwo, if_pos rfl]
  rfl

theorem parseTwo_malformed :
    parseTwo malformed = some (.array
      ([.object [("id".toList, .number "7".toList)]] ++ .object bobRecord :: [])) := by
  rw [parseTwo, if_neg (by decide), if_pos rfl]
  rfl

theorem lookupAccount_record_wellFormed :
    lookupAccount conversions parseTwo (accountsStore wellFormed) "bob".toList = some bob ↔
      ∀ e ∈ [JsonValue.object [("id".toList, .string "alice".toList)]], ¬ Malformed e := by
  have hfirst : ∀ e ∈ [JsonValue.object [("id".toList, .string "alice".toList)]],
      ¬ Named bob.id e := by
    intro e he
    obtain rfl := List.mem_singleton.1 he
    rintro ⟨u, hu, hid⟩
    cases hu
    exact absurd hid (by decide)
  exact lookupAccount_record_iff (by decide) rfl parseTwo_wellFormed bobRecord_record (by decide)
    hfirst

/-- **One malformed record locks out everyone behind it**: bob cannot log
in while the record ahead of his has a number for an id. -/
theorem not_lookupAccount_record_malformed :
    ¬ ∀ (got : AuthKey → Option DsVariant) (s : Text) (before after : List JsonValue) (u : Members)
      (acc : Account), (got .accounts).bind conversions.toText = some s →
        parseTwo s = some (.array (before ++ .object u :: after)) → Record u acc →
          acc.id ≠ "admin".toList → (∀ e ∈ before, ¬ Named acc.id e) →
            lookupAccount conversions parseTwo got acc.id = some acc := by
  intro h
  have hfirst : ∀ e ∈ [JsonValue.object [("id".toList, .number "7".toList)]], ¬ Named bob.id e := by
    intro e he
    obtain rfl := List.mem_singleton.1 he
    rintro ⟨u, hu, hid⟩
    cases hu
    exact absurd hid (by decide)
  have hfound := h (accountsStore malformed) _ _ _ _ bob rfl parseTwo_malformed bobRecord_record
    (by decide) hfirst
  exact absurd hfound (by decide)

end ZeroTouch
