import QuiPanel.Model
import QuiPanel.Text
import QuiPanel.Library.Table
import QuiPanel.Library.Outcome

namespace QuiPanel

namespace Accounts

open Keyed Outcome

def roleAdmin : String := "admin"

def roleManager : String := "manager"

def roleModerator : String := "moderator"

def roleReseller : String := "reseller"

def roleMember : String := "member"

def normalizeRole (role : String) : String :=
  let role := Text.toLower (Text.trimSpace role)
  if role = roleAdmin then roleAdmin
  else if role = roleManager then roleManager
  else if role = roleModerator then roleModerator
  else if role = roleReseller then roleReseller
  else roleMember

structure Account where
  id : Int
  username : String
  password : String
  fullName : String
  phone : String
  email : String
  role : String
  tenantId : Int
  balance : Int64
  costPerGBOverride : Int
  allowedInbounds : List Int
  loginEpoch : Int

def Account.isAdmin (u : Account) : Bool := normalizeRole u.role == roleAdmin

structure Workspace where
  id : Int
  slug : String
  managerUserId : Int
  name : String
  status : TenantStatus
  apiKeyHash : String

structure ClientOwner where
  email : String
  ownerId : Int

structure DB where
  users : Table Account Account.id
  tenants : Table Workspace Workspace.id
  clientRecords : List ClientOwner
  transactions : List Transaction

structure AdminUserInput where
  username : String
  password : String
  fullName : String
  phone : String
  email : String
  role : String
  balance : Int64
  costPerGBOverride : Int
  allowedInbounds : List Int
  tenantId : Int

structure CreateManagerInput where
  username : String
  password : String
  fullName : String
  email : String
  phone : String
  slug : String
  name : String

inductive Err
  | recordNotFound
  | usernameTaken
  | emailTaken
  | invalidUsername
  | invalidEmail
  | weakPassword
  | hashFailed (text : String)
  | lastAdmin
  | tenantUserForbidden
  | tenantRoleForbidden
  | tenantNotFound
  | slugInvalid
  | slugTaken
  | noUniqueSlug
  deriving DecidableEq

structure Env where
  parseAddress : String → Option String
  hashPasswordAsBcrypt : String → Except String String
  hashTokenSHA256 : String → String

def alnum (r : Char) : Bool := ('a' ≤ r && r ≤ 'z') || ('0' ≤ r && r ≤ '9')

def usernameRegex (s : String) : Bool :=
  3 ≤ s.length && s.length ≤ 32 &&
    s.toList.all fun r => alnum r || ('A' ≤ r && r ≤ 'Z') || r == '_'

def minPasswordLen : Nat := 6

def validatePasswordStrength (password : String) : Except Err Unit :=
  check (minPasswordLen ≤ password.length) .weakPassword

def reservedSlugs : List String :=
  ["api", "setting", "settings", "xray", "ws", "csrf-token", "api-docs", "inbounds", "clients",
    "groups", "users", "profile", "billing", "nodes", "store", "orders", "products", "services",
    "referral", "manual-deposit", "manual-deposits", "tickets", "support", "finance"]

def slugPattern (s : String) : Bool :=
  3 ≤ s.length && s.length ≤ 32 && s.toList.all (fun r => alnum r || r == '-') &&
    s.toList.head?.any alnum && s.toList.getLast?.any alnum

def validateSlug (s : String) : Bool :=
  let s := Text.toLower (Text.trimSpace s)
  slugPattern s && !reservedSlugs.contains s

def trimDashes (cs : List Char) : List Char :=
  ((cs.dropWhile (· == '-')).reverse.dropWhile (· == '-')).reverse

def replaceAllDashes : List Char → List Char
  | '-' :: '-' :: cs => '-' :: replaceAllDashes cs
  | c :: cs => c :: replaceAllDashes cs
  | [] => []

def deriveSlug (username : String) : String :=
  let b := (Text.toLower (Text.trimSpace username)).toList.map fun r => if alnum r then r else '-'
  let out := trimDashes b
  let out := replaceAllDashes^[out.length] out
  let out := if out.length < 3 then out ++ "-ws".toList else out
  let out := if 32 < out.length then trimDashes (out.take 32) else out
  String.ofList out

section queries

variable (env : Env) (db : DB)

def optionalEmail (email : String) : Except Err String :=
  let email := Text.toLower (Text.trimSpace email)
  if email = "" then .ok ""
  else if env.parseAddress email = some email ∧ email.utf8ByteSize ≤ 254 then .ok email
  else .error .invalidEmail

def hashPassword (password : String) : Except Err String :=
  (env.hashPasswordAsBcrypt password).mapError .hashFailed

def newPassword (password : String) : Except Err (Option String) :=
  if Text.trimSpace password = "" then .ok none
  else do
    validatePasswordStrength password
    let hashed ← hashPassword env password
    return some hashed

def usernameTaken (username : String) (tenantId : Int) (other : Account → Bool) : Bool :=
  db.users.rows.any fun u =>
    Text.toLower u.username == Text.toLower username && u.tenantId == tenantId && other u

def emailTaken (email : String) (tenantId : Int) (other : Account → Bool) : Bool :=
  db.users.rows.any fun u =>
    Text.toLower u.email == Text.toLower email && u.tenantId == tenantId && other u

def checkUnique (username email : String) (tenantId : Int) (other : Account → Bool) : Except Err Unit :=
  if usernameTaken db username tenantId other then .error .usernameTaken
  else if email ≠ "" ∧ emailTaken db email tenantId other then .error .emailTaken
  else .ok ()

def countAdmins : Nat := db.users.rows.countP fun u => u.role == roleAdmin

def guardLastAdmin (existing : Account) : Except Err Unit :=
  check (!existing.isAdmin || 1 < countAdmins db) .lastAdmin

def guardDemotion (existing : Account) (newRole : String) : Except Err Unit :=
  if newRole = roleAdmin then .ok () else guardLastAdmin db existing

def slugTaken (slug : String) : Bool := db.tenants.rows.any fun t => t.slug == slug

def slugLoop (base : List Char) (candidate : String) : List Nat → Except Err String
  | [] => .error .noUniqueSlug
  | i :: is =>
    if validateSlug candidate ∧ ¬ slugTaken db candidate then .ok candidate
    else
      let suffix := ("-" ++ toString i).toList
      let trimTo := 32 - suffix.length
      let b := if trimTo < base.length then trimDashes (base.take trimTo) else base
      slugLoop base (String.ofList (b ++ suffix)) is

def uniqueSlug (base : String) : Except Err String :=
  let base := if validateSlug base then base.toList else ("ws-".toList ++ base.toList).take 32
  slugLoop db base (String.ofList base) (List.range' 2 998)

end queries

section operations

variable (env : Env) (db : DB)

def adminCreateUserTx (inp : AdminUserInput) : Except Err (Int × DB) := do
  let username := Text.trimSpace inp.username
  check (usernameRegex username) .invalidUsername
  validatePasswordStrength inp.password
  let email ← optionalEmail env inp.email
  let hashed ← hashPassword env inp.password
  checkUnique db username email inp.tenantId fun _ => true
  let users := db.users.insert (fun id =>
    { id, username, password := hashed, fullName := Text.trimSpace inp.fullName
      phone := Text.trimSpace inp.phone, email, role := normalizeRole inp.role
      tenantId := inp.tenantId, balance := if inp.balance < 0 then 0 else inp.balance
      costPerGBOverride := if inp.costPerGBOverride < 0 then 0 else inp.costPerGBOverride
      allowedInbounds := inp.allowedInbounds, loginEpoch := 0 }) fun _ => rfl
  return (db.users.next, { db with users })

def adminCreateUser (inp : AdminUserInput) : Except Err DB :=
  (adminCreateUserTx env db inp).map (·.2)

def adminUpdateUser (id : Int) (inp : AdminUserInput) : Except Err DB := do
  let username := Text.trimSpace inp.username
  check (usernameRegex username) .invalidUsername
  let email ← optionalEmail env inp.email
  let newRole := normalizeRole inp.role
  let password ← newPassword env inp.password
  let existing ← orErr (db.users.find id) .recordNotFound
  checkUnique db username email existing.tenantId fun u => u.id != id
  guardDemotion db existing newRole
  let users := db.users.modify (fun u => u.id == id) (fun u =>
    { u with
      username, fullName := Text.trimSpace inp.fullName, phone := Text.trimSpace inp.phone, email
      role := newRole
      costPerGBOverride := if inp.costPerGBOverride < 0 then 0 else inp.costPerGBOverride
      allowedInbounds := inp.allowedInbounds, password := password.getD u.password
      loginEpoch := if password.isSome then u.loginEpoch + 1 else u.loginEpoch }) fun _ => rfl
  return { db with users }

def deleteUser (id : Int) : Except Err DB := do
  let existing ← orErr (db.users.find id) .recordNotFound
  guardLastAdmin db existing
  return { db with
    clientRecords := db.clientRecords.map fun c => if c.ownerId = id then { c with ownerId := 0 } else c
    transactions := db.transactions.filter fun t => t.userId != id
    users := db.users.delete fun u => u.id == id }

def tenantManageableRole (role : String) : Bool :=
  let role := normalizeRole role
  role == roleReseller || role == roleMember || role == roleModerator

def loadInScope (id : Int) (scope : Scope) : Except Err Account := do
  let u ← orErr ((db.users.find id).filter fun u => scope.sees u.tenantId) .tenantUserForbidden
  check (tenantManageableRole u.role) .tenantRoleForbidden
  return u

def tenantUserCreate (inp : AdminUserInput) (scope : Scope) : Except Err DB := do
  check (tenantManageableRole inp.role) .tenantRoleForbidden
  let (id, db) ← adminCreateUserTx env db { inp with tenantId := scope.ownerTenantId }
  return { db with
    users := db.users.modify (fun u => u.id == id) (fun u =>
      { u with tenantId := scope.ownerTenantId }) fun _ => rfl }

def tenantUserUpdate (id : Int) (inp : AdminUserInput) (scope : Scope) : Except Err DB := do
  let _ ← loadInScope db id scope
  check (tenantManageableRole inp.role) .tenantRoleForbidden
  adminUpdateUser env db id inp

def tenantUserDelete (id : Int) (scope : Scope) : Except Err DB := do
  let _ ← loadInScope db id scope
  deleteUser db id

def managerCreate (inp : CreateManagerInput) (apiKeyPlain : String) : Except Err DB := do
  let slug := Text.toLower (Text.trimSpace inp.slug)
  check (validateSlug slug) .slugInvalid
  let name := if Text.trimSpace inp.name = "" then inp.username else Text.trimSpace inp.name
  check (!slugTaken db slug) .slugTaken
  let (userId, db) ← adminCreateUserTx env db
    { username := inp.username, password := inp.password, fullName := inp.fullName, phone := inp.phone
      email := inp.email, role := roleManager, balance := 0, costPerGBOverride := 0
      allowedInbounds := [], tenantId := 0 }
  let tenantId := db.tenants.next
  let tenants := db.tenants.insert (fun id =>
    { id, slug, managerUserId := userId, name, status := .active
      apiKeyHash := env.hashTokenSHA256 apiKeyPlain }) fun _ => rfl
  return { db with
    tenants
    users := db.users.modify (fun u => u.id == userId) (fun u => { u with tenantId }) fun _ => rfl }

def ensureWorkspaceForUser (userId : Int) : Except Err DB := do
  check (0 < userId) .tenantNotFound
  match db.tenants.rows.find? fun t => t.managerUserId == userId with
  | some t =>
    return { db with
      users := db.users.modify (fun u => u.id == userId && u.tenantId != t.id) (fun u =>
        { u with tenantId := t.id }) fun _ => rfl }
  | none =>
    let user ← orErr (db.users.find userId) .recordNotFound
    let slug ← uniqueSlug db (deriveSlug user.username)
    let tenantId := db.tenants.next
    let tenants := db.tenants.insert (fun id =>
      { id, slug, managerUserId := userId, name := user.username, status := .active, apiKeyHash := "" })
      fun _ => rfl
    return { db with
      tenants
      users := db.users.modify (fun u => u.id == userId) (fun u => { u with tenantId }) fun _ => rfl }

def managerDelete (tenantId : Int) : Except Err DB := do
  let t ← orErr (db.tenants.find tenantId) .tenantNotFound
  return { db with
    users := db.users.delete fun u => u.id == t.managerUserId
    tenants := db.tenants.delete fun t => t.id == tenantId }

end operations

inductive Act
  | adminCreateUser (inp : AdminUserInput)
  | adminUpdateUser (id : Int) (inp : AdminUserInput)
  | deleteUser (id : Int)
  | tenantUserCreate (inp : AdminUserInput) (scope : Scope)
  | tenantUserUpdate (id : Int) (inp : AdminUserInput) (scope : Scope)
  | tenantUserDelete (id : Int) (scope : Scope)
  | managerCreate (inp : CreateManagerInput) (apiKeyPlain : String)
  | managerDelete (tenantId : Int)
  | ensureWorkspaceForUser (userId : Int)

def call (env : Env) (db : DB) : Act → Except Err DB
  | .adminCreateUser inp => adminCreateUser env db inp
  | .adminUpdateUser id inp => adminUpdateUser env db id inp
  | .deleteUser id => deleteUser db id
  | .tenantUserCreate inp scope => tenantUserCreate env db inp scope
  | .tenantUserUpdate id inp scope => tenantUserUpdate env db id inp scope
  | .tenantUserDelete id scope => tenantUserDelete db id scope
  | .managerCreate inp apiKeyPlain => managerCreate env db inp apiKeyPlain
  | .managerDelete tenantId => managerDelete db tenantId
  | .ensureWorkspaceForUser userId => ensureWorkspaceForUser db userId

def step (env : Env) (db : DB) (a : Act) : DB := (call env db a).toOption.getD db

section operations

variable {env : Env} {db db' : DB}

def HasAdmin (db : DB) : Prop := ∃ u ∈ db.users.rows, u.role = roleAdmin

def KeepsRoles (db db' : DB) : Prop :=
  ∀ u ∈ db.users.rows, ∃ u' ∈ db'.users.rows, u'.role = u.role

theorem KeepsRoles.hasAdmin (h : KeepsRoles db db') (hadmin : HasAdmin db) : HasAdmin db' := by
  obtain ⟨u, hu, hrole⟩ := hadmin
  obtain ⟨u', hu', hsame⟩ := h u hu
  exact ⟨u', hu', hsame.trans hrole⟩

theorem keeps_modify {users : List Account} {p : Account → Bool} {f : Account → Account}
    (hsub : ∀ u ∈ db.users.rows, u ∈ users)
    (hdb : db'.users.rows = users.map fun u => if p u then f u else u)
    (hrole : ∀ u, (f u).role = u.role) : KeepsRoles db db' := by
  intro u hu
  rw [hdb]
  refine ⟨_, List.mem_map_of_mem (hsub u hu), ?_⟩
  split
  · exact hrole u
  · rfl

variable {inp : AdminUserInput}

variable {id : Int} {scope : Scope}

theorem adminCreateUserTx_ok
    (h : adminCreateUserTx env db inp = .ok (id, db')) :
    (∀ u ∈ db.users.rows, u ∈ db'.users.rows) ∧ db'.tenants = db.tenants := by
  simp only [adminCreateUserTx, bind_ok] at h
  obtain ⟨-, -, -, -, email, -, hashed, -, -, -, h⟩ := h
  cases h
  exact ⟨fun u hu => Table.mem_insert.mpr (.inl hu), rfl⟩

theorem adminCreateUser_keeps (h : adminCreateUser env db inp = .ok db') :
    KeepsRoles db db' := by
  simp only [adminCreateUser, Except.map] at h
  split at h
  · cases h
  · cases h
    rename_i r hr
    exact fun u hu => ⟨u, (adminCreateUserTx_ok hr).1 u hu, rfl⟩

theorem tenantUserCreate_keeps
    (h : tenantUserCreate env db inp scope = .ok db') : KeepsRoles db db' := by
  simp only [tenantUserCreate, bind_ok] at h
  obtain ⟨-, -, ⟨id, db₁⟩, hcreate, h⟩ := h
  cases h
  exact keeps_modify (adminCreateUserTx_ok hcreate).1 rfl fun _ => rfl

theorem managerCreate_keeps {inp : CreateManagerInput} {apiKeyPlain : String}
    (h : managerCreate env db inp apiKeyPlain = .ok db') : KeepsRoles db db' := by
  simp only [managerCreate, bind_ok] at h
  obtain ⟨-, -, -, -, ⟨id, db₁⟩, hcreate, h⟩ := h
  cases h
  exact keeps_modify (adminCreateUserTx_ok hcreate).1 rfl fun _ => rfl

theorem ensureWorkspaceForUser_keeps {userId : Int}
    (h : ensureWorkspaceForUser db userId = .ok db') : KeepsRoles db db' := by
  simp only [ensureWorkspaceForUser, bind_ok] at h
  obtain ⟨-, -, h⟩ := h
  split at h
  · cases h
    exact keeps_modify (fun _ hu => hu) rfl fun _ => rfl
  · simp only [bind_ok] at h
    obtain ⟨user, -, slug, -, h⟩ := h
    cases h
    exact keeps_modify (fun _ hu => hu) rfl fun _ => rfl

theorem guardLastAdmin_ok {existing : Account} {r : Unit} (h : guardLastAdmin db existing = .ok r)
    (hadmin : existing.role = roleAdmin) : 1 < countAdmins db := by
  have hisAdmin : existing.isAdmin = true := by
    simp only [Account.isAdmin, hadmin]
    decide
  simpa [guardLastAdmin, check_ok, hisAdmin] using h

theorem other_admin (h : 1 < countAdmins db) (id : Int) :
    ∃ u ∈ db.users.rows, u.role = roleAdmin ∧ u.id ≠ id := by
  obtain ⟨u, hu, hrole, hne⟩ := db.users.exists_other h id
  exact ⟨u, hu, by simpa using hrole, hne⟩

theorem deleteUser_keeps (h : deleteUser db id = .ok db') (hadmin : HasAdmin db) :
    HasAdmin db' := by
  simp only [deleteUser, bind_ok, orErr_ok] at h
  obtain ⟨existing, hfind, _, hguard, h⟩ := h
  cases h
  have hother : ∃ u ∈ db.users.rows, u.role = roleAdmin ∧ u.id ≠ id := by
    obtain ⟨u, hu, hrole⟩ := hadmin
    rcases eq_or_ne u.id id with rfl | hne
    · rw [Table.find_of_mem hu] at hfind
      obtain rfl := Option.some.inj hfind
      exact other_admin (guardLastAdmin_ok hguard hrole) _
    · exact ⟨u, hu, hrole, hne⟩
  obtain ⟨u, hu, hrole, hne⟩ := hother
  exact ⟨u, Table.mem_delete.mpr ⟨hu, by simpa using hne⟩, hrole⟩

theorem adminUpdateUser_keeps
    (h : adminUpdateUser env db id inp = .ok db') (hadmin : HasAdmin db) : HasAdmin db' := by
  simp only [adminUpdateUser, bind_ok, orErr_ok] at h
  obtain ⟨-, -, email, -, password, -, existing, hfind, -, -, _, hguard, h⟩ := h
  cases h
  obtain ⟨u, hu, hrole⟩ := hadmin
  by_cases hnew : normalizeRole inp.role = roleAdmin
  · rcases eq_or_ne u.id id with hid | hid
    · exact ⟨_, List.mem_map_of_mem hu, by simp [hid, hnew]⟩
    · exact ⟨_, List.mem_map_of_mem hu, by simp [hid, hrole]⟩
  · rw [guardDemotion, if_neg hnew] at hguard
    have hother : ∃ u ∈ db.users.rows, u.role = roleAdmin ∧ u.id ≠ id := by
      rcases eq_or_ne u.id id with rfl | hne
      · rw [Table.find_of_mem hu] at hfind
        obtain rfl := Option.some.inj hfind
        exact other_admin (guardLastAdmin_ok hguard hrole) _
      · exact ⟨u, hu, hrole, hne⟩
    obtain ⟨u', hu', hrole', hne⟩ := hother
    exact ⟨_, List.mem_map_of_mem hu', by simp [hne, hrole']⟩

theorem tenantUserUpdate_keeps
    (h : tenantUserUpdate env db id inp scope = .ok db') (hadmin : HasAdmin db) : HasAdmin db' := by
  simp only [tenantUserUpdate, bind_ok] at h
  obtain ⟨_, -, _, -, h⟩ := h
  exact adminUpdateUser_keeps h hadmin

theorem tenantUserDelete_keeps
    (h : tenantUserDelete db id scope = .ok db') (hadmin : HasAdmin db) : HasAdmin db' := by
  simp only [tenantUserDelete, bind_ok] at h
  obtain ⟨_, -, h⟩ := h
  exact deleteUser_keeps h hadmin

def SparesLastAdmin (db : DB) : Act → Prop
  | .managerDelete tenantId => ∀ t, db.tenants.find tenantId = some t →
      ∀ u, db.users.find t.managerUserId = some u → u.role = roleAdmin → 1 < countAdmins db
  | _ => True

theorem managerDelete_iff {tenantId : Int} (h : managerDelete db tenantId = .ok db')
    (hadmin : HasAdmin db) : HasAdmin db' ↔ SparesLastAdmin db (.managerDelete tenantId) := by
  simp only [managerDelete, bind_ok, orErr_ok] at h
  obtain ⟨t, hfind, h⟩ := h
  cases h
  constructor
  · rintro ⟨u, hu, hrole⟩ t' ht' owner howner hownerRole
    rw [hfind] at ht'
    obtain rfl := Option.some.inj ht'
    obtain ⟨hmem, hne⟩ := Table.mem_delete.mp hu
    obtain ⟨hmem', hkey⟩ := Table.mem_of_find howner
    by_contra hle
    have hsame := db.users.only_one hmem' (by simpa using hownerRole) (Nat.le_of_not_lt hle) u hmem
      (by simpa using hrole)
    rw [hkey] at hsame
    simp [hsame] at hne
  · intro hspares
    obtain ⟨u, hu, hrole⟩ := hadmin
    rcases eq_or_ne u.id t.managerUserId with heq | hne
    · have hcount := hspares t hfind u (heq ▸ Table.find_of_mem hu) hrole
      obtain ⟨u', hu', hrole', hne⟩ := other_admin hcount t.managerUserId
      exact ⟨u', Table.mem_delete.mpr ⟨hu', by simpa using hne⟩, hrole'⟩
    · exact ⟨u, Table.mem_delete.mpr ⟨hu, by simpa using hne⟩, hrole⟩

theorem managerDelete_error {tenantId : Int} {e : Err} (h : managerDelete db tenantId = .error e) :
    SparesLastAdmin db (.managerDelete tenantId) := by
  intro t ht
  simp only [managerDelete, ht, orErr, Option.elim] at h
  cases h

theorem step_iff {a : Act} (hadmin : HasAdmin db) :
    HasAdmin (step env db a) ↔ SparesLastAdmin db a := by
  cases hcall : call env db a with
  | error e =>
    have hstep : step env db a = db := by simp only [step, hcall]; rfl
    rw [hstep]
    cases a with
    | managerDelete tenantId => exact ⟨fun _ => managerDelete_error hcall, fun _ => hadmin⟩
    | _ => exact ⟨fun _ => trivial, fun _ => hadmin⟩
  | ok db' =>
    have hstep : step env db a = db' := by simp only [step, hcall]; rfl
    rw [hstep]
    cases a with
    | adminCreateUser => exact ⟨fun _ => trivial, fun _ => (adminCreateUser_keeps hcall).hasAdmin hadmin⟩
    | adminUpdateUser => exact ⟨fun _ => trivial, fun _ => adminUpdateUser_keeps hcall hadmin⟩
    | deleteUser => exact ⟨fun _ => trivial, fun _ => deleteUser_keeps hcall hadmin⟩
    | tenantUserCreate => exact ⟨fun _ => trivial, fun _ => (tenantUserCreate_keeps hcall).hasAdmin hadmin⟩
    | tenantUserUpdate => exact ⟨fun _ => trivial, fun _ => tenantUserUpdate_keeps hcall hadmin⟩
    | tenantUserDelete => exact ⟨fun _ => trivial, fun _ => tenantUserDelete_keeps hcall hadmin⟩
    | managerCreate => exact ⟨fun _ => trivial, fun _ => (managerCreate_keeps hcall).hasAdmin hadmin⟩
    | managerDelete => exact managerDelete_iff hcall hadmin
    | ensureWorkspaceForUser =>
      exact ⟨fun _ => trivial, fun _ => (ensureWorkspaceForUser_keeps hcall).hasAdmin hadmin⟩

end operations

def run (env : Env) (db : DB) (acts : List Act) : DB := acts.foldl (step env) db

def SparesThroughout (env : Env) (db : DB) : List Act → Prop
  | [] => True
  | a :: acts => SparesLastAdmin db a ∧ SparesThroughout env (step env db a) acts

theorem admin_remains_iff {env : Env} {db : DB} {acts : List Act} (hadmin : HasAdmin db) :
    (∀ n, HasAdmin (run env db (acts.take n))) ↔ SparesThroughout env db acts := by
  induction acts generalizing db with
  | nil => simpa [run, SparesThroughout] using hadmin
  | cons a acts ih =>
    constructor
    · intro h
      have hstep : HasAdmin (step env db a) := h 1
      refine ⟨(step_iff hadmin).mp hstep, (ih hstep).mp ?_⟩
      intro n
      exact h (n + 1)
    · rintro ⟨hspares, hrest⟩ n
      have hstep : HasAdmin (step env db a) := (step_iff hadmin).mpr hspares
      cases n with
      | zero => exact hadmin
      | succ n => exact (ih hstep).mpr hrest n

def plainEnv : Env := ⟨some, .ok, id⟩

def oneAdmin : DB where
  users := Table.empty.insert (fun id =>
    { id, username := "root", password := "hash", fullName := "", phone := "", email := ""
      role := roleAdmin, tenantId := 0, balance := 0, costPerGBOverride := 0, allowedInbounds := []
      loginEpoch := 0 }) fun _ => rfl
  tenants := Table.empty
  clientRecords := []
  transactions := []

theorem oneAdmin_hasAdmin : HasAdmin oneAdmin := ⟨_, Table.mem_insert.mpr (.inr rfl), rfl⟩

theorem admin_remains_iff_refused : HasAdmin oneAdmin ∧
    ∀ n, HasAdmin (run plainEnv oneAdmin ([Act.deleteUser 1, .managerDelete 1].take n)) := by
  have hnone : ((step plainEnv oneAdmin (.deleteUser 1)).tenants.find 1).isNone := by decide +kernel
  refine ⟨oneAdmin_hasAdmin, (admin_remains_iff oneAdmin_hasAdmin).mpr ⟨trivial, ?_, trivial⟩⟩
  intro t ht
  rw [ht] at hnone
  cases hnone

def promotedManager : List Act :=
  [.managerCreate ⟨"boss", "secret", "", "", "", "alpha", "Alpha"⟩ "key",
    .adminUpdateUser 2 ⟨"boss", "", "", "", "", "admin", 0, 0, [], 0⟩,
    .deleteUser 1,
    .managerDelete 1]

theorem last_admin_deleted :
    HasAdmin oneAdmin ∧ ¬ HasAdmin (run plainEnv oneAdmin promotedManager) := by
  refine ⟨oneAdmin_hasAdmin, ?_⟩
  rintro ⟨u, hu, -⟩
  have hnone : (run plainEnv oneAdmin promotedManager).users.rows.length = 0 := by decide +kernel
  rw [List.length_eq_zero_iff.mp hnone] at hu
  cases hu

end Accounts

end QuiPanel
