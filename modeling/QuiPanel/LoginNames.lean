import QuiPanel.Workspaces

namespace QuiPanel

namespace LoginNames

open Keyed Outcome Accounts Workspaces Trace List

structure Env extends Accounts.Env where
  checkPasswordHash : String → String → Bool
  ldapEnabled : Bool
  ldapAuthenticate : String → String → Bool
  totpNow : String → String

structure Site where
  db : DB
  twoFactorEnable : Bool
  twoFactorToken : String

inductive Err
  | account (e : Accounts.Err)
  | invalidFullName
  | invalidPhone
  | wrongPassword
  | emptyUsername
  | emptyPassword
  | invalidCredentials
  | invalidTwoFactorCode
  deriving DecidableEq

structure RegisterInput where
  fullName : String
  phone : String
  email : String
  username : String
  password : String
  tenantId : Int

structure SelfProfileInput where
  currentPassword : String
  username : String
  email : String
  newPassword : String

def digit (r : Char) : Bool := '0' ≤ r && r ≤ '9'

def phoneRegex (s : String) : Bool :=
  let cs := if s.toList.head? = some '+' then s.toList.tail else s.toList
  match cs with
  | [] => false
  | c :: rest => digit c && 4 ≤ rest.length && rest.length ≤ 19 &&
      rest.all fun r => digit r || [' ', '(', ')', '-', '.'].contains r

def normalizeRegisterInput (inp : RegisterInput) : RegisterInput :=
  { inp with
    fullName := Text.trimSpace inp.fullName
    phone := Text.trimSpace inp.phone
    email := Text.toLower (Text.trimSpace inp.email)
    username := Text.trimSpace inp.username }

section operations

variable (env : Env) (site : Site)

def validateRegisterInput (inp : RegisterInput) : Except Err Unit := do
  check (2 ≤ inp.fullName.length && inp.fullName.length ≤ 100) .invalidFullName
  check (usernameRegex inp.username) (.account .invalidUsername)
  check (phoneRegex inp.phone) .invalidPhone
  check (env.parseAddress inp.email == some inp.email && inp.email.utf8ByteSize ≤ 254)
    (.account .invalidEmail)
  (validatePasswordStrength inp.password).mapError .account

def register (input : RegisterInput) : Except Err Site := do
  let inp := normalizeRegisterInput input
  validateRegisterInput env inp
  let hashed ← (hashPassword env.toEnv inp.password).mapError .account
  (checkUnique site.db inp.username inp.email inp.tenantId fun _ => true).mapError .account
  let users := site.db.users.insert (fun id =>
    { id, username := inp.username, password := hashed, fullName := inp.fullName, phone := inp.phone
      email := inp.email, role := roleMember, tenantId := inp.tenantId, balance := 0
      costPerGBOverride := 0, allowedInbounds := [], loginEpoch := 0 }) fun _ => rfl
  return { site with db := { site.db with users } }

def first (p : Account → Bool) : Option Account :=
  ((site.db.users.rows.filter p).insertionSort fun u v => u.id ≤ v.id).head?

def checkUser (username password twoFactorCode : String) (tenantId : Int) : Except Err Account := do
  let user ← orErr
    (first site fun u => Text.toLower u.username == Text.toLower username && u.tenantId == tenantId)
    .invalidCredentials
  check (env.checkPasswordHash user.password password ||
    (env.ldapEnabled && env.ldapAuthenticate username password)) .invalidCredentials
  check (!site.twoFactorEnable || env.totpNow site.twoFactorToken == twoFactorCode)
    .invalidTwoFactorCode
  return user

def updateUser (id : Int) (username password : String) : Except Err Site := do
  let hashed ← (hashPassword env.toEnv password).mapError .account
  let users := site.db.users.modify (fun u => u.id == id) (fun u =>
    { u with username, password := hashed, loginEpoch := u.loginEpoch + 1 }) fun _ => rfl
  return {
    db := { site.db with users }
    twoFactorEnable := false
    twoFactorToken := if site.twoFactorEnable then "" else site.twoFactorToken }

def updateFirstUser (username password : String) : Except Err Site := do
  check (username != "") .emptyUsername
  check (password != "") .emptyPassword
  let hashed ← (hashPassword env.toEnv password).mapError .account
  match first site fun _ => true with
  | none =>
    let users := site.db.users.insert (fun id =>
      { id, username, password := hashed, fullName := "", phone := "", email := "", role := roleAdmin
        tenantId := 0, balance := 0, costPerGBOverride := 0, allowedInbounds := [], loginEpoch := 0 })
      fun _ => rfl
    return { site with db := { site.db with users } }
  | some user =>
    let users := site.db.users.modify (fun u => u.id == user.id) (fun u =>
      { u with username, password := hashed, loginEpoch := u.loginEpoch + 1 }) fun _ => rfl
    return { site with db := { site.db with users } }

def updateSelfProfile (userId : Int) (inp : SelfProfileInput) : Except Err Site := do
  let username := Text.trimSpace inp.username
  check (usernameRegex username) (.account .invalidUsername)
  let email ← (optionalEmail env.toEnv inp.email).mapError .account
  let user ← orErr (site.db.users.find userId) (.account .recordNotFound)
  check (env.checkPasswordHash user.password inp.currentPassword) .wrongPassword
  let password ← (newPassword env.toEnv inp.newPassword).mapError .account
  (checkUnique site.db username email user.tenantId fun u => u.id != userId).mapError .account
  let users := site.db.users.modify (fun u => u.id == userId) (fun u =>
    { u with
      username, email, password := password.getD u.password
      loginEpoch := if password.isSome then u.loginEpoch + 1 else u.loginEpoch }) fun _ => rfl
  return { site with db := { site.db with users } }

end operations

inductive Op
  | event (e : Event)
  | register (input : RegisterInput)
  | updateUser (id : Int) (username password : String)
  | updateFirstUser (username password : String)
  | updateSelfProfile (userId : Int) (inp : SelfProfileInput)

def serve (env : Env) (site : Site) : Op → Except Err Site
  | .event e => .ok { site with db := perform env.toEnv site.db e }
  | .register input => register env site input
  | .updateUser id username password => updateUser env site id username password
  | .updateFirstUser username password => updateFirstUser env site username password
  | .updateSelfProfile userId inp => updateSelfProfile env site userId inp

def act (env : Env) (site : Site) (op : Op) : Site := (serve env site op).toOption.getD site

structure Clash (u v : Account) : Prop where
  differ : u.id ≠ v.id
  tenant : u.tenantId = v.tenantId
  share : Text.toLower u.username = Text.toLower v.username ∨
    (u.email ≠ "" ∧ v.email ≠ "" ∧ Text.toLower u.email = Text.toLower v.email)

def Unique (db : DB) : Prop := ∀ u ∈ db.users.rows, ∀ v ∈ db.users.rows, ¬ Clash u v

def Fits (db : DB) (w : Account) : Prop :=
  checkUnique db w.username w.email w.tenantId (fun u => u.id != w.id) = .ok ()

instance (u v : Account) : Decidable (Clash u v) :=
  decidable_of_iff (u.id ≠ v.id ∧ u.tenantId = v.tenantId ∧
      (Text.toLower u.username = Text.toLower v.username ∨
        (u.email ≠ "" ∧ v.email ≠ "" ∧ Text.toLower u.email = Text.toLower v.email)))
    ⟨fun h => ⟨h.1, h.2.1, h.2.2⟩, fun h => ⟨h.differ, h.tenant, h.share⟩⟩

instance (db : DB) : Decidable (Unique db) :=
  inferInstanceAs (Decidable (∀ u ∈ db.users.rows, ∀ v ∈ db.users.rows, ¬ Clash u v))

instance (db : DB) (w : Account) : Decidable (Fits db w) := inferInstanceAs (Decidable (_ = _))

def workspaceOf (db : DB) (userId : Int) : Option Int :=
  match db.tenants.rows.find? fun t => t.managerUserId == userId with
  | some t => some t.id
  | none => (db.users.find userId).bind fun u =>
    (uniqueSlug db (deriveSlug u.username)).toOption.map fun _ => db.tenants.next

def Settles (db : DB) (userId : Int) : Prop :=
  0 < userId → ∀ u, db.users.find userId = some u → ∀ t, workspaceOf db userId = some t →
    Fits db { u with tenantId := t }

def reconciling (db : DB) (managerId : Int) : DB := (reconcileOne (db, none) managerId).1

def KeepsNames (env : Env) (site : Site) : Op → Prop
  | .event (.call (.ensureWorkspaceForUser userId)) => Settles site.db userId
  | .event (.call (.managerCreate inp apiKeyPlain)) =>
    (managerCreate env.toEnv site.db inp apiKeyPlain).isOk →
      ∀ email, optionalEmail env.toEnv inp.email = .ok email →
        checkUnique site.db (Text.trimSpace inp.username) email site.db.tenants.next
          (fun u => u.id != site.db.users.next) = .ok ()
  | .event .reconcileWorkspaces => Throughout reconciling Settles site.db (managers site.db)
  | .updateUser id username password => (hashPassword env.toEnv password).isOk →
    ∀ u, site.db.users.find id = some u → Fits site.db { u with username }
  | .updateFirstUser username password => username ≠ "" → password ≠ "" →
    (hashPassword env.toEnv password).isOk →
      ∀ u, first site (fun _ => true) = some u → Fits site.db { u with username }
  | _ => True

section names

variable {db db' : DB} {u v w : Account} {k : Int}

theorem toLower_eq_empty {s : String} (h : Text.toLower s = "") : s = "" := by
  have hlist : s.toList.map Char.toLower = [] := by
    rw [← String.toList_ofList (l := s.toList.map Char.toLower)]
    exact congrArg String.toList h
  rw [← String.ofList_toList (s := s), map_eq_nil_iff.mp hlist]

variable {tenantId : Int}

theorem taken_iff {field : Account → String} {name : String} {other : Account → Bool} :
    (db.users.rows.any fun u => Text.toLower (field u) == Text.toLower name && u.tenantId == tenantId &&
      other u) = true ↔
      ∃ v ∈ db.users.rows, Text.toLower (field v) = Text.toLower name ∧ v.tenantId = tenantId ∧
        other v = true := by
  simp only [any_eq_true, Bool.and_eq_true, beq_iff_eq, and_assoc]

theorem checkUnique_ok {username email : String} {other : Account → Bool} :
    checkUnique db username email tenantId other = .ok () ↔
      ∀ v ∈ db.users.rows, v.tenantId = tenantId → other v = true →
        Text.toLower v.username ≠ Text.toLower username ∧
          (email ≠ "" → Text.toLower v.email ≠ Text.toLower email) := by
  rw [checkUnique]
  split
  case isTrue htaken =>
    obtain ⟨v, hv, hname, htenant, hother⟩ := taken_iff.mp htaken
    exact ⟨fun h => (by cases h), fun h => absurd hname (h v hv htenant hother).1⟩
  case isFalse hname =>
    have hfree : ∀ v ∈ db.users.rows, v.tenantId = tenantId → other v = true →
        Text.toLower v.username ≠ Text.toLower username :=
      fun v hv htenant hother he => hname (taken_iff.mpr ⟨v, hv, he, htenant, hother⟩)
    split
    case isTrue htaken =>
      obtain ⟨v, hv, hemail, htenant, hother⟩ := taken_iff.mp htaken.2
      exact ⟨fun h => (by cases h), fun h => absurd hemail ((h v hv htenant hother).2 htaken.1)⟩
    case isFalse hemail =>
      refine ⟨fun _ v hv htenant hother => ⟨hfree v hv htenant hother, ?_⟩, fun _ => rfl⟩
      exact fun hne he => hemail ⟨hne, taken_iff.mpr ⟨v, hv, he, htenant, hother⟩⟩

theorem checkUnique_mono {username email : String} {p q : Account → Bool}
    (h : checkUnique db username email tenantId p = .ok ()) (hqp : ∀ u, q u = true → p u = true) :
    checkUnique db username email tenantId q = .ok () :=
  checkUnique_ok.mpr fun v hv htenant hq => checkUnique_ok.mp h v hv htenant (hqp v hq)

theorem Clash.symm (h : Clash u v) : Clash v u := by
  refine ⟨h.differ.symm, h.tenant.symm, ?_⟩
  rcases h.share with hname | ⟨hu, hv, hemail⟩
  · exact Or.inl hname.symm
  · exact Or.inr ⟨hv, hu, hemail.symm⟩

theorem fits_iff : Fits db w ↔ ∀ v ∈ db.users.rows, ¬ Clash v w := by
  rw [Fits, checkUnique_ok]
  constructor
  · intro h v hv hclash
    obtain ⟨hname, hemail⟩ := h v hv hclash.tenant (by simpa using hclash.differ)
    rcases hclash.share with hsame | ⟨-, hw, hsame⟩
    · exact hname hsame
    · exact hemail hw hsame
  · intro h v hv htenant hother
    have hdiffer : v.id ≠ w.id := by simpa using hother
    refine ⟨fun hname => h v hv ⟨hdiffer, htenant, Or.inl hname⟩, ?_⟩
    intro hw hemail
    refine h v hv ⟨hdiffer, htenant, Or.inr ⟨?_, hw, hemail⟩⟩
    intro hv
    rw [hv] at hemail
    exact hw (toLower_eq_empty hemail.symm)

theorem Unique.mono (h : Unique db) (hsub : ∀ v ∈ db'.users.rows, v ∈ db.users.rows) : Unique db' :=
  fun u hu v hv => h u (hsub u hu) v (hsub v hv)

structure Writes (w : Account) (db db' : DB) : Prop where
  mem : ∀ v, v ∈ db'.users.rows ↔ (v ∈ db.users.rows ∧ v.id ≠ w.id) ∨ v = w

theorem Writes.unique_iff (h : Writes w db db') (hdb : Unique db) : Unique db' ↔ Fits db w := by
  rw [fits_iff]
  constructor
  · intro hdb' v hv hclash
    exact hdb' v ((h.mem v).mpr (Or.inl ⟨hv, hclash.differ⟩)) w ((h.mem w).mpr (Or.inr rfl)) hclash
  · intro hfits u hu v hv hclash
    rcases (h.mem u).mp hu with ⟨hu, -⟩ | rfl
    · rcases (h.mem v).mp hv with ⟨hv, -⟩ | rfl
      · exact hdb u hu v hv hclash
      · exact hfits u hu hclash
    · rcases (h.mem v).mp hv with ⟨hv, -⟩ | rfl
      · exact hfits v hv hclash.symm
      · exact hclash.differ rfl

variable {f : Account → Account}

theorem writes_modify (hfind : db.users.find k = some u)
    (hrows : db'.users.rows = db.users.rows.map fun v => if v.id = k then f v else v)
    (hf : ∀ v, (f v).id = v.id) : Writes (f u) db db' := by
  obtain ⟨hu, rfl⟩ := Table.mem_of_find hfind
  constructor
  intro v
  rw [hrows, mem_map, hf]
  constructor
  · rintro ⟨v₀, hv₀, rfl⟩
    by_cases hid : v₀.id = u.id
    · rw [if_pos hid, Table.eq_of_key hv₀ hu hid]
      exact Or.inr rfl
    · rw [if_neg hid]
      exact Or.inl ⟨hv₀, hid⟩
  · rintro (⟨hv, hid⟩ | rfl)
    · exact ⟨v, hv, if_neg hid⟩
    · exact ⟨u, hu, if_pos rfl⟩

theorem writes_update (hfind : db.users.find k = some u)
    (hf : ∀ v, (f v).id = v.id) (husers : db'.users = db.users.modify (fun v => v.id == k) f hf) :
    Writes (f u) db db' := by
  refine writes_modify hfind ?_ hf
  rw [husers, Table.rows_modify]
  simp only [beq_iff_eq]

theorem writes_insert (hid : w.id = db.users.next) (hrows : db'.users.rows = db.users.rows ++ [w]) :
    Writes w db db' := by
  constructor
  intro v
  rw [hrows, mem_append, mem_singleton, hid]
  constructor
  · rintro (hv | rfl)
    · exact Or.inl ⟨hv, ne_of_lt (db.users.below v hv)⟩
    · exact Or.inr rfl
  · rintro (⟨hv, -⟩ | rfl)
    · exact Or.inl hv
    · exact Or.inr rfl

theorem unchanged (hfind : db.users.find k = none)
    (hrows : db'.users.rows = db.users.rows.map fun v => if v.id = k then f v else v) :
    db'.users.rows = db.users.rows := by
  rw [hrows]
  refine (map_congr_left fun v hv => if_neg ?_).trans (map_id _)
  rintro rfl
  rw [Table.find_of_mem hv] at hfind
  cases hfind

theorem unchanged_update (hfind : db.users.find k = none)
    (hf : ∀ v, (f v).id = v.id) (husers : db'.users = db.users.modify (fun v => v.id == k) f hf) :
    db'.users.rows = db.users.rows := by
  refine unchanged (k := k) (f := f) hfind ?_
  rw [husers, Table.rows_modify]
  simp only [beq_iff_eq]

theorem Writes.trans {w' : Account} {db'' : DB} (h : Writes w db db') (h' : Writes w' db' db'')
    (hid : w'.id = w.id) : Writes w' db db'' := by
  constructor
  intro v
  rw [h'.mem, h.mem, hid]
  constructor
  · rintro (⟨⟨hv, hne⟩ | rfl, hne'⟩ | rfl)
    · exact Or.inl ⟨hv, hne⟩
    · exact absurd rfl hne'
    · exact Or.inr rfl
  · rintro (⟨hv, hne⟩ | rfl)
    · exact Or.inl ⟨Or.inl ⟨hv, hne⟩, hne⟩
    · exact Or.inr rfl

end names

section events

variable {env : Accounts.Env} {db db' : DB} {k : Int}

structure Created (env : Accounts.Env) (inp : AdminUserInput) (db db' : DB) (w : Account) : Prop where
  fresh : w.id = db.users.next
  username : w.username = Text.trimSpace inp.username
  email : optionalEmail env inp.email = .ok w.email
  tenant : w.tenantId = inp.tenantId
  rows : db'.users.rows = db.users.rows ++ [w]
  tenants : db'.tenants = db.tenants
  fits : Fits db w

variable {inp : AdminUserInput}

theorem created (h : adminCreateUserTx env db inp = .ok (k, db')) :
    ∃ w, w.id = k ∧ Created env inp db db' w := by
  simp only [adminCreateUserTx, bind_ok] at h
  obtain ⟨-, -, -, -, email, hemail, hashed, -, _, hcheck, h⟩ := h
  cases h
  exact ⟨_, rfl, rfl, rfl, hemail, rfl, rfl, rfl, checkUnique_mono hcheck fun _ _ => rfl⟩

theorem Created.writes {w : Account} (h : Created env inp db db' w) :
    Writes w db db' :=
  writes_insert h.fresh h.rows

theorem Created.relinked {w : Account} {db'' : DB} {t : Int}
    (h : Created env inp db db' w)
    (husers : db''.users =
      db'.users.modify (fun u => u.id == w.id) (fun u => { u with tenantId := t }) fun _ => rfl) :
    Writes { w with tenantId := t } db db'' := by
  have hw : w ∈ db'.users.rows := by
    rw [h.rows]
    exact mem_append_right _ (mem_singleton_self w)
  exact h.writes.trans (writes_update (Table.find_of_mem hw) (by exact fun _ => rfl) husers) rfl

theorem adminCreateUser_unique (h : adminCreateUser env db inp = .ok db')
    (hdb : Unique db) : Unique db' := by
  simp only [adminCreateUser, Except.map] at h
  split at h
  · cases h
  · cases h
    rename_i r hr
    obtain ⟨w, -, hcreated⟩ := created hr
    exact (hcreated.writes.unique_iff hdb).mpr hcreated.fits

theorem tenantUserCreate_unique {scope : Scope}
    (h : tenantUserCreate env db inp scope = .ok db') (hdb : Unique db) : Unique db' := by
  simp only [tenantUserCreate, bind_ok] at h
  obtain ⟨-, -, ⟨id, db₁⟩, hcreate, h⟩ := h
  cases h
  obtain ⟨w, rfl, hcreated⟩ := created hcreate
  refine ((hcreated.relinked rfl).unique_iff hdb).mpr ?_
  have hfits := hcreated.fits
  rw [Fits, hcreated.tenant] at hfits
  exact hfits

theorem managerCreate_unique {inp : CreateManagerInput} {apiKeyPlain : String}
    (h : managerCreate env db inp apiKeyPlain = .ok db') (hdb : Unique db) :
    Unique db' ↔ ∀ email, optionalEmail env inp.email = .ok email →
      checkUnique db (Text.trimSpace inp.username) email db.tenants.next
        (fun u => u.id != db.users.next) = .ok () := by
  simp only [managerCreate, bind_ok] at h
  obtain ⟨-, -, -, -, ⟨id, db₁⟩, hcreate, h⟩ := h
  cases h
  obtain ⟨w, rfl, hcreated⟩ := created hcreate
  rw [(hcreated.relinked rfl).unique_iff hdb, Fits, hcreated.username, hcreated.fresh,
    hcreated.tenants]
  constructor
  · intro hfits email hemail
    rw [hcreated.email] at hemail
    cases hemail
    exact hfits
  · exact fun hall => hall w.email hcreated.email

theorem adminUpdateUser_unique (h : adminUpdateUser env db k inp = .ok db')
    (hdb : Unique db) : Unique db' := by
  simp only [adminUpdateUser, bind_ok, orErr_ok] at h
  obtain ⟨-, -, email, -, password, -, existing, hfind, _, hcheck, -, -, h⟩ := h
  cases h
  refine ((writes_update hfind (by exact fun _ => rfl) rfl).unique_iff hdb).mpr ?_
  obtain ⟨-, rfl⟩ := Table.mem_of_find hfind
  exact hcheck

theorem deleteUser_unique (h : deleteUser db k = .ok db') (hdb : Unique db) : Unique db' := by
  simp only [deleteUser, bind_ok] at h
  obtain ⟨existing, -, -, -, h⟩ := h
  cases h
  exact hdb.mono fun v hv => (Table.mem_delete.mp hv).1

theorem managerDelete_unique (h : managerDelete db k = .ok db') (hdb : Unique db) : Unique db' := by
  simp only [managerDelete, bind_ok] at h
  obtain ⟨t, -, h⟩ := h
  cases h
  exact hdb.mono fun v hv => (Table.mem_delete.mp hv).1

theorem ensured_workspaceOf (h : ensureWorkspaceForUser db k = .ok db') :
    0 < k ∧ ∃ t,
      db'.users.rows = (db.users.rows.map fun u => if u.id = k then { u with tenantId := t } else u) ∧
      ∀ u, db.users.find k = some u → workspaceOf db k = some t := by
  simp only [ensureWorkspaceForUser, bind_ok, check_ok] at h
  obtain ⟨_, hpos, h⟩ := h
  refine ⟨by simpa using hpos, ?_⟩
  rw [workspaceOf]
  cases howned : db.tenants.rows.find? fun t => t.managerUserId == k with
  | some t =>
    rw [howned] at h
    cases h
    exact ⟨t.id, relink_rows db.users k t.id, fun _ _ => rfl⟩
  | none =>
    rw [howned] at h
    simp only [bind_ok, orErr_ok] at h
    obtain ⟨user, huser, slug, hslug, h⟩ := h
    cases h
    refine ⟨db.tenants.next, ?_, fun u hu => ?_⟩
    · simp only [Table.rows_modify, beq_iff_eq]
    · rw [hu] at huser
      cases huser
      simp only [hu, Option.bind_some, hslug]
      rfl

theorem ensure_unique (h : ensureWorkspaceForUser db k = .ok db') (hdb : Unique db) :
    Unique db' ↔ Settles db k := by
  obtain ⟨hpos, t, hrows, hworkspace⟩ := ensured_workspaceOf h
  cases hfind : db.users.find k with
  | none =>
    refine ⟨fun _ _ u hu => ?_, fun _ => hdb.mono ?_⟩
    · rw [hfind] at hu
      cases hu
    · rw [unchanged hfind hrows]
      exact fun _ hv => hv
  | some u =>
    rw [(writes_modify hfind hrows fun _ => rfl).unique_iff hdb]
    constructor
    · intro hfits _ u' hu' t' ht'
      rw [hfind] at hu'
      rw [hworkspace u hfind] at ht'
      cases hu'
      cases ht'
      exact hfits
    · exact fun hsettles => hsettles hpos u hfind t (hworkspace u hfind)

theorem ensure_error {e : Accounts.Err} (h : ensureWorkspaceForUser db k = .error e) : Settles db k := by
  intro hpos u hu t ht
  simp only [ensureWorkspaceForUser, check, hpos, decide_true, if_true, bind, Except.bind] at h
  rw [workspaceOf] at ht
  cases howned : db.tenants.rows.find? fun t => t.managerUserId == k with
  | some t' =>
    rw [howned] at h
    cases h
  | none =>
    rw [howned] at h ht
    simp only [hu, orErr, Option.elim, Option.bind_some] at h ht
    cases hslug : uniqueSlug db (deriveSlug u.username) with
    | error e' =>
      rw [hslug] at ht
      cases ht
    | ok slug =>
      rw [hslug] at h
      cases h

theorem reconciling_unique (m : Int) (hdb : Unique db) : Unique (reconciling db m) ↔ Settles db m := by
  rw [reconciling, reconcileOne]
  cases hensure : ensureWorkspaceForUser db m with
  | error e => exact ⟨fun _ => ensure_error hensure, fun _ => hdb⟩
  | ok db' => exact ensure_unique hensure hdb

theorem reconcile_fst (ms : List Int) (err : Option Accounts.Err) :
    (ms.foldl reconcileOne (db, err)).1 = ms.foldl reconciling db := by
  induction ms generalizing db err with
  | nil => rfl
  | cons m ms ih =>
    rw [foldl_cons, foldl_cons, reconciling, reconcileOne, reconcileOne]
    cases hensure : ensureWorkspaceForUser db m with
    | error e => exact ih _
    | ok db' => exact ih _

theorem reconcile_unique (hdb : Unique db) (h : Throughout reconciling Settles db (managers db)) :
    Unique (reconcileWorkspaces db).1 := by
  rw [reconcileWorkspaces, reconcile_fst]
  exact h.foldl hdb fun db m hdb hsettles => (reconciling_unique m hdb).mpr hsettles

theorem suspend_rows (userId : Int) :
    (Workspaces.suspendWorkspaceForUser db userId).users = db.users := by
  rw [Workspaces.suspendWorkspaceForUser]
  split <;> rfl

end events

section sites

variable {env : Env} {site site' : Site}

theorem mapError_ok {α : Type} {x : Except Accounts.Err α} {a : α} :
    x.mapError Err.account = .ok a ↔ x = .ok a := by
  cases x with
  | error e => exact ⟨fun h => (by cases h), fun h => (by cases h)⟩
  | ok b => exact ⟨fun h => (by cases h; rfl), fun h => (by cases h; rfl)⟩

theorem isOk_of_eq {ε α : Type} {x : Except ε α} {a : α} (h : x = .ok a) : x.isOk = true := by
  rw [h]
  rfl

theorem not_isOk {ε α : Type} {x : Except ε α} {e : ε} (h : x = .error e) : ¬ x.isOk = true := by
  rw [h]
  exact Bool.false_ne_true

theorem first_mem {p : Account → Bool} {u : Account} (h : first site p = some u) :
    u ∈ site.db.users.rows ∧ p u = true := by
  have hmem := mem_of_head? h
  rw [mem_insertionSort] at hmem
  exact mem_filter.mp hmem

theorem register_unique {input : RegisterInput} (h : register env site input = .ok site')
    (hdb : Unique site.db) : Unique site'.db := by
  simp only [register, bind_ok, mapError_ok] at h
  obtain ⟨-, -, hashed, -, _, hcheck, h⟩ := h
  cases h
  refine ((writes_insert (by exact rfl) rfl).unique_iff hdb).mpr ?_
  exact checkUnique_mono hcheck fun _ _ => rfl

theorem updateSelfProfile_unique {userId : Int} {inp : SelfProfileInput}
    (h : updateSelfProfile env site userId inp = .ok site') (hdb : Unique site.db) :
    Unique site'.db := by
  simp only [updateSelfProfile, bind_ok, mapError_ok, orErr_ok] at h
  obtain ⟨-, -, email, -, user, hfind, -, -, password, -, _, hcheck, h⟩ := h
  cases h
  refine ((writes_update hfind (by exact fun _ => rfl) rfl).unique_iff hdb).mpr ?_
  obtain ⟨-, rfl⟩ := Table.mem_of_find hfind
  exact hcheck

variable {username password : String}

theorem updateUser_unique {id : Int}
    (h : updateUser env site id username password = .ok site') (hdb : Unique site.db) :
    Unique site'.db ↔ KeepsNames env site (.updateUser id username password) := by
  simp only [updateUser, bind_ok, mapError_ok] at h
  obtain ⟨hashed, hhash, h⟩ := h
  cases h
  cases hfind : site.db.users.find id with
  | none =>
    refine ⟨fun _ _ u hu => ?_, fun _ => hdb.mono ?_⟩
    · rw [hfind] at hu
      cases hu
    · rw [unchanged_update hfind (by exact fun _ => rfl) rfl]
      exact fun _ hv => hv
  | some u =>
    rw [(writes_update hfind (by exact fun _ => rfl) rfl).unique_iff hdb]
    constructor
    · intro hfits _ u' hu'
      rw [hfind] at hu'
      cases hu'
      exact hfits
    · exact fun hkeeps => hkeeps (isOk_of_eq hhash) u hfind

theorem updateFirstUser_unique
    (h : updateFirstUser env site username password = .ok site') (hdb : Unique site.db) :
    Unique site'.db ↔ KeepsNames env site (.updateFirstUser username password) := by
  simp only [updateFirstUser, bind_ok, mapError_ok, check_ok, bne_iff_ne] at h
  obtain ⟨_, husername, _, hpassword, hashed, hhash, h⟩ := h
  cases hfirst : first site fun _ => true with
  | none =>
    rw [hfirst] at h
    cases h
    have hempty : site.db.users.rows = [] := by
      rw [first, head?_eq_none_iff, ← length_eq_zero_iff, length_insertionSort,
        length_eq_zero_iff] at hfirst
      simpa using hfirst
    refine ⟨fun _ _ _ _ u hu => ?_, fun _ => ?_⟩
    · rw [hfirst] at hu
      cases hu
    · refine ((writes_insert (by exact rfl) rfl).unique_iff hdb).mpr (fits_iff.mpr fun v hv => ?_)
      rw [hempty] at hv
      cases hv
  | some u =>
    rw [hfirst] at h
    cases h
    rw [(writes_update (Table.find_of_mem (first_mem hfirst).1) (by exact fun _ => rfl) rfl).unique_iff hdb]
    constructor
    · intro hfits _ _ _ u' hu'
      rw [hfirst] at hu'
      cases hu'
      exact hfits
    · exact fun hkeeps => hkeeps husername hpassword (isOk_of_eq hhash) u hfirst

theorem updateUser_error {id : Int} {e : Err}
    (h : updateUser env site id username password = .error e) :
    KeepsNames env site (.updateUser id username password) := by
  intro hok
  rw [updateUser] at h
  cases hhash : hashPassword env.toEnv password with
  | error e' => exact absurd hok (not_isOk hhash)
  | ok hashed =>
    rw [hhash] at h
    cases h

theorem updateFirstUser_error {e : Err}
    (h : updateFirstUser env site username password = .error e) :
    KeepsNames env site (.updateFirstUser username password) := by
  intro husername hpassword hok u hu
  cases hhash : hashPassword env.toEnv password with
  | error e' => exact absurd hok (not_isOk hhash)
  | ok hashed =>
    have hnames : (username != "") = true ∧ (password != "") = true :=
      ⟨bne_iff_ne.mpr husername, bne_iff_ne.mpr hpassword⟩
    rw [updateFirstUser, hnames.1, hnames.2, hhash, hu] at h
    cases h

theorem act_ok {op : Op} (h : serve env site op = .ok site') : act env site op = site' := by
  rw [act, h]
  rfl

theorem act_error {op : Op} {e : Err} (h : serve env site op = .error e) : act env site op = site := by
  rw [act, h]
  rfl

theorem call_unique (a : Act) (hdb : Unique site.db) :
    Unique (Accounts.step env.toEnv site.db a) ↔ KeepsNames env site (.event (.call a)) := by
  rw [Accounts.step]
  cases hcall : call env.toEnv site.db a with
  | error e =>
    cases a with
    | managerCreate inp apiKeyPlain => exact ⟨fun _ hok => absurd hok (not_isOk hcall), fun _ => hdb⟩
    | ensureWorkspaceForUser userId => exact ⟨fun _ => ensure_error hcall, fun _ => hdb⟩
    | _ => exact ⟨fun _ => trivial, fun _ => hdb⟩
  | ok db' =>
    cases a with
    | adminCreateUser inp => exact ⟨fun _ => trivial, fun _ => adminCreateUser_unique hcall hdb⟩
    | adminUpdateUser id inp => exact ⟨fun _ => trivial, fun _ => adminUpdateUser_unique hcall hdb⟩
    | deleteUser id => exact ⟨fun _ => trivial, fun _ => deleteUser_unique hcall hdb⟩
    | tenantUserCreate inp scope => exact ⟨fun _ => trivial, fun _ => tenantUserCreate_unique hcall hdb⟩
    | tenantUserUpdate id inp scope =>
      exact ⟨fun _ => trivial, fun _ => adminUpdateUser_unique (tenantUserUpdate_updates hcall) hdb⟩
    | tenantUserDelete id scope =>
      exact ⟨fun _ => trivial, fun _ => deleteUser_unique (tenantUserDelete_deletes hcall) hdb⟩
    | managerCreate inp apiKeyPlain =>
      refine (managerCreate_unique hcall hdb).trans ⟨fun h _ => h, fun h => h (isOk_of_eq hcall)⟩
    | managerDelete tenantId => exact ⟨fun _ => trivial, fun _ => managerDelete_unique hcall hdb⟩
    | ensureWorkspaceForUser userId => exact ensure_unique hcall hdb

theorem act_unique_iff {op : Op} (hop : op ≠ .event .reconcileWorkspaces) (hdb : Unique site.db) :
    Unique (act env site op).db ↔ KeepsNames env site op := by
  cases op with
  | event e =>
    cases e with
    | call a => exact call_unique a hdb
    | suspendWorkspaceForUser userId =>
      refine ⟨fun _ => trivial, fun _ => hdb.mono fun v hv => ?_⟩
      have hrows : (act env site (.event (.suspendWorkspaceForUser userId))).db.users = site.db.users :=
        suspend_rows userId
      rwa [hrows] at hv
    | reconcileWorkspaces => exact absurd rfl hop
  | register input =>
    refine ⟨fun _ => trivial, fun _ => ?_⟩
    cases hserve : serve env site (.register input) with
    | error e =>
      rw [act_error hserve]
      exact hdb
    | ok site' =>
      rw [act_ok hserve]
      exact register_unique hserve hdb
  | updateUser id username password =>
    cases hserve : serve env site (.updateUser id username password) with
    | error e =>
      rw [act_error hserve]
      exact ⟨fun _ => updateUser_error hserve, fun _ => hdb⟩
    | ok site' =>
      rw [act_ok hserve]
      exact updateUser_unique hserve hdb
  | updateFirstUser username password =>
    cases hserve : serve env site (.updateFirstUser username password) with
    | error e =>
      rw [act_error hserve]
      exact ⟨fun _ => updateFirstUser_error hserve, fun _ => hdb⟩
    | ok site' =>
      rw [act_ok hserve]
      exact updateFirstUser_unique hserve hdb
  | updateSelfProfile userId inp =>
    refine ⟨fun _ => trivial, fun _ => ?_⟩
    cases hserve : serve env site (.updateSelfProfile userId inp) with
    | error e =>
      rw [act_error hserve]
      exact hdb
    | ok site' =>
      rw [act_ok hserve]
      exact updateSelfProfile_unique hserve hdb

theorem act_unique {op : Op} (hdb : Unique site.db) (h : KeepsNames env site op) :
    Unique (act env site op).db := by
  cases op with
  | event e =>
    cases e with
    | reconcileWorkspaces => exact reconcile_unique hdb h
    | call a => exact (act_unique_iff (fun he => by cases he) hdb).mpr h
    | suspendWorkspaceForUser userId => exact (act_unique_iff (fun he => by cases he) hdb).mpr h
  | _ => exact (act_unique_iff (fun he => by cases he) hdb).mpr h

structure Denotes (site : Site) (username : String) (tenantId : Int) (u : Account) : Prop where
  account : u ∈ site.db.users.rows
  named : Text.toLower u.username = Text.toLower username ∧ u.tenantId = tenantId
  only : ∀ v ∈ site.db.users.rows, Text.toLower v.username = Text.toLower username →
    v.tenantId = tenantId → v = u

theorem checkUser_denotes {username password twoFactorCode : String} {tenantId : Int} {u : Account}
    (hdb : Unique site.db) (h : checkUser env site username password twoFactorCode tenantId = .ok u) :
    Denotes site username tenantId u := by
  simp only [checkUser, bind_ok, orErr_ok] at h
  obtain ⟨user, hfirst, -, -, -, -, h⟩ := h
  cases h
  obtain ⟨hu, hnamed⟩ := first_mem hfirst
  rw [Bool.and_eq_true, beq_iff_eq, beq_iff_eq] at hnamed
  refine ⟨hu, hnamed, ?_⟩
  intro v hv hname htenant
  by_contra hne
  refine hdb v hv u hu ⟨fun hid => hne (Table.eq_of_key hv hu hid), ?_, Or.inl ?_⟩
  · exact htenant.trans hnamed.2.symm
  · exact hname.trans hnamed.1.symm

theorem login_names_unique (env : Env) (site : Site) (ops : List Op) (hdb : Unique site.db) :
    (∀ op, op ≠ .event .reconcileWorkspaces →
      (Unique (act env site op).db ↔ KeepsNames env site op)) ∧
    (Throughout (act env) (KeepsNames env) site ops → ∀ n,
      Unique ((ops.take n).foldl (act env) site).db ∧
      ∀ username password twoFactorCode tenantId u,
        checkUser env ((ops.take n).foldl (act env) site) username password twoFactorCode tenantId =
            .ok u →
          Denotes ((ops.take n).foldl (act env) site) username tenantId u) := by
  refine ⟨fun op hop => act_unique_iff hop hdb, fun hops n => ?_⟩
  have hunique : Unique ((ops.take n).foldl (act env) site).db :=
    (hops.take n).foldl (I := fun site => Unique site.db) hdb fun site op => act_unique
  exact ⟨hunique, fun username password twoFactorCode tenantId u => checkUser_denotes hunique⟩

end sites

def plainSite : Site := ⟨oneAdmin, false, ""⟩

def plainLogin : Env := { plainEnv with
  checkPasswordHash := fun hash password => hash == password
  ldapEnabled := false
  ldapAuthenticate := fun _ _ => false
  totpNow := id }

def second : Op := .event (.call (.adminCreateUser ⟨"second", "secret", "", "", "", "member", 0, 0, [], 0⟩))

def renamed : List Op := [second, .updateUser 1 "first" "secret"]

theorem login_names_unique_renamed : Unique (renamed.foldl (act plainLogin) plainSite).db := by
  have hfree : ((act plainLogin plainSite second).db.users.find 1).all fun u =>
      decide (Fits (act plainLogin plainSite second).db { u with username := "first" }) := by
    decide +kernel
  have hkeeps : KeepsNames plainLogin (act plainLogin plainSite second) (.updateUser 1 "first" "secret") := by
    intro _ u hu
    rw [hu] at hfree
    exact of_decide_eq_true hfree
  exact ((login_names_unique plainLogin plainSite renamed (by decide +kernel)).2
    ⟨trivial, hkeeps, trivial⟩ 2).1

def takenOver : List Op := [second, .updateUser 1 "Second" "secret"]

theorem name_taken_over :
    Unique plainSite.db ∧ ¬ Unique (takenOver.foldl (act plainLogin) plainSite).db := by
  decide +kernel

end LoginNames

end QuiPanel
