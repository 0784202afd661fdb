import QuiPanel.Clients
import QuiPanel.Model

namespace QuiPanel

namespace Clients

open Keyed Outcome List

structure ClientCreatePayload where
  client : Client
  inboundIds : List Int
  ownerId : Int
  tenantId : Int

structure Draws where
  now : Int
  uuid : Token
  subID : Token
  password : Token
  auth : Token
  nameToken : Token
  attempts : Nat → Attempt
  stamp : Option String

def hasForbiddenClientChar (s : String) : Bool :=
  s.toList.any fun r => r == '/' || r == '\\' || r == ' ' || r.toNat < 0x20 || r.toNat == 0x7f

def errEmailInUse : String := "email already in use"

def errSubIdInUse : String := "subId already in use"

section create

variable (env : Env) (d : Draws)

def prepare (db : DB) (payload : ClientCreatePayload) : Except String Client := do
  let client := payload.client
  check (Text.trimSpace client.email != "") "client email is required\n"
  check (!hasForbiddenClientChar client.email)
    ("client email contains an invalid character: " ++ client.email ++ "\n")
  check (!hasForbiddenClientChar client.subID)
    ("client subId contains an invalid character: " ++ client.subID ++ "\n")
  check (!payload.inboundIds.isEmpty) "at least one inbound is required\n"
  let client := { client with
    subID := if client.subID = "" then d.uuid else client.subID
    enable := true
    createdAt := if client.createdAt = 0 then d.now else client.createdAt
    updatedAt := d.now }
  let sameSub := (db.record client.email).all fun existing =>
    existing.subID != "" && existing.subID == client.subID
  check sameSub errEmailInUse
  check (!db.records.rows.any fun r => r.subID == client.subID && r.email != client.email) errSubIdInUse
  return client

def addToInbounds : Nat → DB → Client → List Int → DB × Except String Client
  | _, db, client, [] => (db, .ok client)
  | k, db, client, ibId :: ids =>
    match addTo env (d.attempts k) db client ibId with
    | .error e => (db, .error e)
    | .ok (db, client) => addToInbounds (k + 1) db client ids

def stampRecord (payload : ClientCreatePayload) (r : ClientRecord) : ClientRecord :=
  { r with
    tenantId := payload.tenantId
    ownerId := if payload.ownerId = 0 then r.ownerId else payload.ownerId }

def stampOwner (db : DB) (email : String) (payload : ClientCreatePayload) : DB :=
  { db with
    records := db.records.modify (·.email == email) (stampRecord payload) fun _ => rfl }

def create (db : DB) (payload : ClientCreatePayload) : DB × Except String Unit :=
  match prepare d db payload with
  | .error e => (db, .error e)
  | .ok client =>
    match addToInbounds env d 0 db client payload.inboundIds with
    | (db, .error e) => (db, .error e)
    | (db, .ok _) =>
      match d.stamp with
      | some e => (db, .error e)
      | none => (stampOwner db client.email payload, .ok ())

end create

structure Buyer extends User where
  registered : 0 < id

def sanitizeClientName (name : String) : String :=
  String.ofList ((Text.trimSpace name).toList.map fun r =>
    if r == '/' || r == '\\' || r == ' ' || r.toNat < 0x20 || r.toNat == 0x7f then '-' else r)

def buildClientEmail (token : Token) (username : String) (orderId : Nat) : String :=
  let u := sanitizeClientName username
  let u := if u = "" then "user" else u
  u ++ "-o" ++ toString orderId ++ "-" ++ token

def clientName (d : Draws) (buyer : Buyer) (orderId : Nat) (name : String) : String :=
  let email := sanitizeClientName name
  if email = "" then buildClientEmail d.nameToken buyer.username orderId else email

def orderPayload (env : Env) (d : Draws) (buyer : Buyer) (product : Product) (orderId : Nat)
    (name : String) (tenantId : Int) : ClientCreatePayload where
  client :=
    { id := d.uuid, security := "", password := d.password, flow := env.visionFlow, reverse := none
      auth := d.auth, email := clientName d buyer orderId name, limitIP := 0
      totalGB := product.trafficLimit.toInt
      expiryTime := if 0 < product.durationDays then env.addDate d.now product.durationDays else 0
      enable := true, tgID := 0
      subID := d.subID, group := "", comment := "", reset := 0, createdAt := 0, updatedAt := 0 }
  inboundIds := product.inboundIds
  ownerId := buyer.id
  tenantId

def provision (env : Env) (d : Draws) (db : DB) (buyer : Buyer) (product : Product) (orderId : Nat)
    (name : String) (tenantId : Int) : DB × Except String String :=
  let payload := orderPayload env d buyer product orderId name tenantId
  let (db, result) := create env d db payload
  (db, result.map fun _ => payload.client.email)

section names

theorem token_trimmed (t : Token) : Text.trimSpace t = t :=
  Text.trimSpace_of_edged (Text.edged_plain t.2.2)

theorem token_ne (t : Token) : (t : String) ≠ "" := t.2.1

theorem edged_sanitizeClientName (name : String) : Text.Edged (sanitizeClientName name).toList := by
  rw [sanitizeClientName, String.toList_ofList]
  apply (Text.edged_trimSpace name).map
  intro c hc
  split
  · decide
  · exact hc

theorem edged_buildClientEmail (token : Token) (username : String) (orderId : Nat) :
    Text.Edged (buildClientEmail token username orderId).toList := by
  have hedged : ∀ u : String, Text.Edged u.toList → u ≠ "" →
      Text.Edged (u ++ "-o" ++ toString orderId ++ "-" ++ token).toList := by
    intro u hu hne
    have hlist : (u ++ "-o" ++ toString orderId ++ "-" ++ token).toList =
        u.toList ++ ("-o" ++ toString orderId ++ "-").toList ++ (token : String).toList := by
      simp [String.toList_append, append_assoc]
    rw [hlist]
    exact hu.append (Text.edged_plain token.2.2) (by simpa using hne) (by simpa using token.2.1)
  rw [buildClientEmail]
  split
  · exact hedged "user" (Text.edged_plain (by decide)) (by decide)
  case isFalse hne => exact hedged _ (edged_sanitizeClientName username) hne

theorem clientName_trimmed (d : Draws) (buyer : Buyer) (orderId : Nat) (name : String) :
    Text.trimSpace (clientName d buyer orderId name) = clientName d buyer orderId name := by
  apply Text.trimSpace_of_edged
  rw [clientName]
  split
  · exact edged_buildClientEmail ..
  · exact edged_sanitizeClientName name

end names

section grew

variable {env : Env} {d : Draws} {o : Attempt} {db db₀ db₁ db' : DB} {client client' : Client}
  {e sub : String} {i : Int}

structure Grew (e sub : String) (db₀ db : DB) : Prop where
  emails : ∀ m, m ∈ emails db.records ↔ m ∈ emails db₀.records ∨ m = e
  shape : ∀ i, (db.clientsOf i).isSome = (db₀.clientsOf i).isSome
  added : ∀ i c, c ∈ db.settingsClients i →
    c ∈ db₀.settingsClients i ∨ (c.email = e ∧ c.subID = sub)
  kept : ∀ i c, c ∈ db₀.settingsClients i →
    c ∈ db.settingsClients i ∨ (c.email ≠ "" ∧ c.email ∉ Clients.emails db₀.records)

theorem Added.recorded (h : Added i client db db' client') : client.email ∈ Clients.emails db'.records :=
  (h.emails _).mpr (.inr rfl)

theorem Added.grew (h : Added i client db db' client') : Grew client.email client.subID db db' := by
  obtain ⟨cs, entry, hcs, hemail, hsub, hsettings⟩ := h.settings
  have hof : ∀ j, j ≠ i → db'.settingsClients j = db.settingsClients j := by
    intro j hj
    rw [DB.settingsClients, hsettings, if_neg hj, DB.settingsClients]
  have hat : db'.settingsClients i = compactOrphans db cs ++ [entry] := by
    rw [DB.settingsClients, hsettings, if_pos rfl, Option.getD_some]
  have hat₀ : db.settingsClients i = cs := by rw [DB.settingsClients, hcs, Option.getD_some]
  constructor
  · exact h.emails
  · intro j
    rw [hsettings]
    split
    case isTrue hj => rw [hj, hcs]; rfl
    case isFalse => rfl
  · intro j c hc
    by_cases hj : j = i
    · subst hj
      rw [hat] at hc
      rcases mem_append.mp hc with hc | hc
      · rw [hat₀]
        exact .inl (mem_filter.mp hc).1
      · rw [mem_singleton.mp hc]
        exact .inr ⟨hemail, hsub⟩
    · rw [hof j hj] at hc
      exact .inl hc
  · intro j c hc
    by_cases hj : j = i
    · subst hj
      rw [hat₀] at hc
      by_cases hkeep : c ∈ compactOrphans db cs
      · rw [hat]
        exact .inl (mem_append_left _ hkeep)
      · right
        rw [compactOrphans, mem_filter] at hkeep
        simpa [hc, recorded_iff] using hkeep
    · rw [hof j hj]
      exact .inl hc

theorem Grew.refl (h : e ∈ Clients.emails db.records) : Grew e sub db db where
  emails := fun _ => ⟨.inl, fun hm => hm.elim id fun he => he ▸ h⟩
  shape := fun _ => rfl
  added := fun _ _ hc => .inl hc
  kept := fun _ _ hc => .inl hc

theorem Grew.trans (h : Grew e sub db₀ db₁) (h' : Grew e sub db₁ db) : Grew e sub db₀ db := by
  constructor
  · intro m
    rw [h'.emails, h.emails, or_assoc, or_self]
  · intro j
    rw [h'.shape, h.shape]
  · intro j c hc
    rcases h'.added j c hc with hc | hnew
    · exact h.added j c hc
    · exact .inr hnew
  · intro j c hc
    rcases h.kept j c hc with hc | hdropped
    · rcases h'.kept j c hc with hc | ⟨hne, hdropped⟩
      · exact .inl hc
      · exact .inr ⟨hne, fun hin => hdropped ((h.emails _).mpr (.inl hin))⟩
    · exact .inr hdropped

theorem Grew.unrivalled (h : Grew client.email client.subID db₀ db) (hfit : Fit client)
    (hrival : unrivalled db₀ client = true) : unrivalled db client = true := by
  rw [unrivalled_iff hfit] at hrival ⊢
  intro c hc hlower
  obtain ⟨j, hc⟩ := mem_allClients.mp hc
  rcases h.added j c hc with hc | ⟨-, hsub⟩
  · exact hrival c (mem_allClients.mpr ⟨j, hc⟩) hlower
  · exact hsub

theorem Grew.admits (h : Grew e sub db₀ db) (htrim : Text.trimSpace e = e) :
    admits db (Clients.emails db.records) o i = admits db₀ (e :: Clients.emails db₀.records) o i := by
  rw [Bool.eq_iff_iff, admits_iff, admits_iff, h.shape]
  refine and_congr_right fun _ => and_congr_right fun _ => and_congr_right fun _ => and_congr_right fun _ => ?_
  constructor
  · intro hsettled c hc
    rcases h.kept i c hc with hin | ⟨-, hunrecorded⟩
    · rcases hsettled c hin with hblank | hunrecorded | htrimmed | hknown
      · exact .inl hblank
      · exact .inr (.inl fun hrec => hunrecorded ((h.emails _).mpr (.inl hrec)))
      · exact .inr (.inr (.inl htrimmed))
      · refine .inr (.inr (.inr ?_))
        rw [mem_cons, or_comm]
        exact (h.emails _).mp hknown
    · exact .inr (.inl hunrecorded)
  · intro hsettled c hc
    have hown : c.email = e → Text.trimSpace c.email ∈ Clients.emails db.records := by
      intro he
      rw [he, htrim]
      exact (h.emails e).mpr (.inr rfl)
    rcases h.added i c hc with hc | ⟨he, -⟩
    · rcases hsettled c hc with hblank | hunrecorded | htrimmed | hknown
      · exact .inl hblank
      · by_cases he : c.email = e
        · exact .inr (.inr (.inr (hown he)))
        · exact .inr (.inl fun hrec => ((h.emails _).mp hrec).elim hunrecorded he)
      · exact .inr (.inr (.inl htrimmed))
      · refine .inr (.inr (.inr ((h.emails _).mpr ?_)))
        rw [or_comm]
        exact mem_cons.mp hknown
    · exact .inr (.inr (.inr (hown he)))

def allAdmitted (db : DB) (known : List String) (attempts : Nat → Attempt) : Nat → List Int → Bool
  | _, [] => true
  | k, i :: is => admits db known (attempts k) i && allAdmitted db known attempts (k + 1) is

variable (env d) in
theorem addToInbounds_grew (k : Nat) (is : List Int) (hg : Grew client.email client.subID db₀ db)
    (hfit : Fit client) : Grew client.email client.subID db₀ (addToInbounds env d k db client is).1 := by
  induction is generalizing k db client with
  | nil => exact hg
  | cons i is ih =>
    rw [addToInbounds]
    split
    · exact hg
    case h_2 db' client' hadd =>
      have hadded := addTo_added hfit hadd
      have hg' := hg.trans hadded.grew
      rw [← hadded.email, ← hadded.subID] at hg' ⊢
      exact ih _ hg' hadded.fit

variable (env d) in
theorem addToInbounds_isOk (k : Nat) (is : List Int) (hg : Grew client.email client.subID db₀ db)
    (hfit : Fit client) (hrival : unrivalled db₀ client = true) :
    (addToInbounds env d k db client is).2.isOk =
      allAdmitted db₀ (client.email :: Clients.emails db₀.records) d.attempts k is := by
  induction is generalizing k db client with
  | nil => rfl
  | cons i is ih =>
    rw [addToInbounds, allAdmitted, ← hg.admits hfit.trimmed]
    have hiff : (∃ next, addTo env (d.attempts k) db client i = .ok next) ↔
        unrivalled db client = true ∧ Clients.admits db (Clients.emails db.records) (d.attempts k) i = true :=
      addTo_isOk hfit
    rw [hg.unrivalled hfit hrival, eq_self, true_and] at hiff
    split
    case h_1 err hadd =>
      have hrefused : admits db (Clients.emails db.records) (d.attempts k) i = false := by
        rw [Bool.eq_false_iff]
        intro hadmits
        obtain ⟨next, hok⟩ := hiff.mpr hadmits
        rw [hadd] at hok
        cases hok
      rw [hrefused]
      rfl
    case h_2 db' client' hadd =>
      have hadded := addTo_added hfit hadd
      have hg' := hg.trans hadded.grew
      rw [hiff.mp ⟨_, hadd⟩, Bool.true_and]
      rw [← hadded.email, ← hadded.subID] at hg'
      rw [ih _ hg' hadded.fit ((unrivalled_congr hadded.email hadded.subID).trans hrival), hadded.email]

theorem prepare_ok {payload : ClientCreatePayload} (h : prepare d db payload = .ok client)
    (hsub : payload.client.subID ≠ "") :
    client.email = payload.client.email ∧ client.subID = payload.client.subID ∧
      client.id = payload.client.id ∧ client.password = payload.client.password ∧
      client.auth = payload.client.auth ∧ Text.trimSpace client.email ≠ "" ∧ payload.inboundIds ≠ [] := by
  simp only [prepare, bind_ok, check_ok] at h
  obtain ⟨_, hnamed, _, -, _, -, _, hids, _, -, _, -, h⟩ := h
  cases h
  refine ⟨rfl, if_neg hsub, rfl, rfl, rfl, by simpa using hnamed, by simpa using hids⟩

variable (env d db) in
theorem addToInbounds_present (k : Nat) (is : List Int) (hfit : Fit client)
    (hok : (addToInbounds env d k db client is).2.isOk = true) :
    ∀ i ∈ is, ∃ c ∈ (addToInbounds env d k db client is).1.settingsClients i,
      c.email = client.email ∧ c.subID = client.subID := by
  induction is generalizing k db client with
  | nil => exact fun i hi => absurd hi not_mem_nil
  | cons i is ih =>
    rw [addToInbounds] at hok ⊢
    split at hok
    · cases hok
    case h_2 db' client' hadd =>
      have hadded := addTo_added hfit hadd
      intro j hj
      rw [← hadded.email, ← hadded.subID]
      rcases mem_cons.mp hj with rfl | hj
      · obtain ⟨cs, entry, -, hemail, hsub, hsettings⟩ := hadded.settings
        have hin : entry ∈ db'.settingsClients j := by
          rw [DB.settingsClients, hsettings, if_pos rfl]
          exact mem_append_right _ mem_cons_self
        have hrec : client'.email ∈ Clients.emails db'.records := by
          rw [hadded.email]
          exact hadded.recorded
        have hgrew := addToInbounds_grew env d (k + 1) is (Grew.refl hrec) hadded.fit
        rw [← hadded.email] at hemail
        rw [← hadded.subID] at hsub
        rcases hgrew.kept j entry hin with hkept | ⟨-, hdropped⟩
        · exact ⟨entry, hkept, hemail, hsub⟩
        · rw [hemail] at hdropped
          exact absurd hrec hdropped
      · exact ih _ _ hadded.fit hok j hj

theorem Added.entries (h : Added i client db db' client')
    (hrec : client.email ∈ Clients.emails db.records) :
    ∃ entry, ∀ j, db'.entries j client.email =
      db.entries j client.email ++ if j = i then [entry] else [] := by
  obtain ⟨cs, entry, hcs, hemail, -, hsettings⟩ := h.settings
  refine ⟨entry, ?_⟩
  intro j
  rw [DB.entries, DB.settingsClients, hsettings]
  split
  case isTrue hj =>
    have hkept : (compactOrphans db cs).filter (·.email == client.email) =
        cs.filter (·.email == client.email) := by
      rw [compactOrphans, filter_filter]
      apply filter_congr
      intro c _
      by_cases hc : c.email = client.email
      · simp [hc, recorded_iff.mpr hrec]
      · simp [hc]
    rw [Option.getD_some, filter_append, hkept, DB.entries, DB.settingsClients, hj, hcs,
      Option.getD_some]
    simp [hemail]
  case isFalse => rw [append_nil, DB.entries, DB.settingsClients]

variable (env d) in
theorem addToInbounds_entries (k : Nat) (is : List Int) (hfit : Fit client)
    (hrec : client.email ∈ Clients.emails db.records) (j : Int) :
    (db.entries j client.email).length ≤
      ((addToInbounds env d k db client is).1.entries j client.email).length := by
  induction is generalizing k db client with
  | nil => exact Nat.le_refl _
  | cons i is ih =>
    rw [addToInbounds]
    split
    · exact Nat.le_refl _
    case h_2 db' client' hadd =>
      have hadded := addTo_added hfit hadd
      obtain ⟨entry, hentries⟩ := hadded.entries hrec
      have hrec' : client'.email ∈ Clients.emails db'.records := by
        rw [hadded.email]
        exact hadded.recorded
      have hrest := ih (k + 1) hadded.fit hrec'
      rw [hadded.email, hentries, length_append] at hrest
      omega

end grew

section allOrNothing

variable {env : Env} {d : Draws} {db db' : DB} {client : Client} {payload : ClientCreatePayload}

def linksOf (db : DB) (email : String) : List ClientInbound :=
  db.links.filter fun l => db.records.rows.any fun r => r.recordId == l.clientId && r.email == email

structure Untouched (email : String) (db db' : DB) : Prop where
  settings : ∀ i, db'.entries i email = db.entries i email
  recorded : db'.recorded email = db.recorded email
  links : linksOf db' email = linksOf db email

structure Delivered (payload : ClientCreatePayload) (db' : DB) : Prop where
  settings : ∀ i ∈ payload.inboundIds,
    ∃ c ∈ db'.entries i payload.client.email, c.subID = payload.client.subID
  owned : ∃ r, db'.record payload.client.email = some r ∧ r.ownerId = payload.ownerId ∧
    r.tenantId = payload.tenantId

def AllOrNothing (payload : ClientCreatePayload) (db db' : DB) : Except String String → Prop
  | .error _ => Untouched payload.client.email db db'
  | .ok email => email = payload.client.email ∧ Delivered payload db'

def refusedBeforeFirst (d : Draws) (db : DB) (payload : ClientCreatePayload) : Bool :=
  match prepare d db payload, payload.inboundIds with
  | .ok client, first :: _ =>
    !unrivalled db client || !admits db (emails db.records) (d.attempts 0) first
  | _, _ => true

def restAdmitted (d : Draws) (db : DB) (payload : ClientCreatePayload) : Bool :=
  allAdmitted db (payload.client.email :: emails db.records) d.attempts 1 payload.inboundIds.tail &&
    d.stamp.isNone

variable {env : Env} {product : Product} {tenantId : Int} {buyer : Buyer} {orderId : Nat} {name : String}

theorem orderPayload_fit
    (h : prepare d db (orderPayload env d buyer product orderId name tenantId) = .ok client) :
    Fit client ∧ client.email = clientName d buyer orderId name ∧ client.subID = d.subID ∧
      product.inboundIds ≠ [] := by
  have hsubID : (orderPayload env d buyer product orderId name tenantId).client.subID ≠ "" :=
    token_ne d.subID
  obtain ⟨hemail, hsub, hid, hpassword, hauth, hnamed, hids⟩ := prepare_ok h hsubID
  simp only [orderPayload] at hemail hsub hid hpassword hauth hids
  have htrimmed : Text.trimSpace client.email = client.email := by
    rw [hemail, clientName_trimmed]
  refine ⟨⟨?_, htrimmed, ?_, ?_, ?_, ?_⟩, hemail, hsub, hids⟩
  · rw [htrimmed] at hnamed
    exact hnamed
  · rw [hsub, token_trimmed]
    exact token_ne d.subID
  · rw [hid]
    exact token_ne d.uuid
  · rw [hpassword]
    exact token_ne d.password
  · rw [hauth]
    exact token_ne d.auth

theorem stampOwner_delivered (hrec : payload.client.email ∈ emails db.records) (howner : payload.ownerId ≠ 0)
    (hsettings : ∀ i ∈ payload.inboundIds, ∃ c ∈ db.settingsClients i,
      c.email = payload.client.email ∧ c.subID = payload.client.subID) :
    Delivered payload (stampOwner db payload.client.email payload) := by
  constructor
  · intro i hi
    obtain ⟨c, hc, hemail, hsub⟩ := hsettings i hi
    refine ⟨c, ?_, hsub⟩
    rw [DB.entries, mem_filter]
    exact ⟨hc, by simpa using hemail⟩
  · obtain ⟨r, hr, hemail⟩ := mem_map.mp hrec
    have hrows : (stampOwner db payload.client.email payload).records.rows =
        db.records.rows.map fun r =>
          if r.email == payload.client.email then stampRecord payload r else r :=
      rfl
    cases hfind : (stampOwner db payload.client.email payload).record payload.client.email with
    | none =>
      rw [DB.record, hrows, find?_eq_none] at hfind
      have hstamped := hfind _ (mem_map.mpr ⟨r, hr, rfl⟩)
      simp [hemail, stampRecord] at hstamped
    | some stamped =>
      rw [DB.record, hrows] at hfind
      have hemail' : stamped.email = payload.client.email := by simpa using find?_some hfind
      obtain ⟨row, -, hrow⟩ := mem_map.mp (mem_of_find?_eq_some hfind)
      refine ⟨stamped, rfl, ?_⟩
      split at hrow
      · rw [← hrow]
        exact ⟨if_neg howner, rfl⟩
      case isFalse hne =>
        rw [hrow] at hne
        exact absurd (by simpa using hemail') hne

theorem created_not_untouched (d : Draws) (k : Nat) {i : Int} (is : List Int) {o : Attempt}
    {client' : Client} (hfit : Fit client) (hadd : addTo env o db client i = .ok (db', client')) :
    ¬ Untouched client.email db (addToInbounds env d k db' client' is).1 := by
  intro h
  have hadded := addTo_added hfit hadd
  have hrec' : client'.email ∈ emails db'.records := by
    rw [hadded.email]
    exact hadded.recorded
  have hgrew := addToInbounds_grew env d k is (Grew.refl hrec') hadded.fit
  by_cases hrec : client.email ∈ emails db.records
  · obtain ⟨entry, hentries⟩ := hadded.entries hrec
    have hmore := addToInbounds_entries env d k is hadded.fit hrec' i
    rw [hadded.email, h.settings, hentries, if_pos rfl, length_append, length_singleton] at hmore
    omega
  · apply hrec
    rw [← recorded_iff, ← h.recorded, recorded_iff, ← hadded.email]
    exact (hgrew.emails _).mpr (.inr rfl)

theorem untouched_refl (email : String) (db : DB) : Untouched email db db := ⟨fun _ => rfl, rfl, rfl⟩

theorem create_whole_iff (hprepare : prepare d db payload = .ok client) (hfit : Fit client)
    (hemail : client.email = payload.client.email) (hsub : client.subID = payload.client.subID)
    (hids : payload.inboundIds ≠ []) (howner : payload.ownerId ≠ 0) :
    AllOrNothing payload db (create env d db payload).1
        ((create env d db payload).2.map fun _ => payload.client.email) ↔
      (refusedBeforeFirst d db payload || restAdmitted d db payload) = true := by
  cases hlist : payload.inboundIds with
  | nil => exact absurd hlist hids
  | cons first rest =>
    have hiff : (∃ next, addTo env (d.attempts 0) db client first = .ok next) ↔
        unrivalled db client = true ∧ admits db (emails db.records) (d.attempts 0) first = true :=
      addTo_isOk hfit
    have hpresent := addToInbounds_present env d db 0 payload.inboundIds hfit
    rw [create, hprepare, hlist, refusedBeforeFirst, hprepare, hlist, restAdmitted, hlist, tail_cons,
      ← hemail]
    rw [hlist] at hpresent
    dsimp only
    rw [addToInbounds] at hpresent ⊢
    cases hadd : addTo env (d.attempts 0) db client first with
    | error err =>
      have hrefused : (!unrivalled db client || !admits db (emails db.records) (d.attempts 0) first) = true := by
        rw [← Bool.not_and, Bool.not_eq_true']
        apply eq_false_of_ne_true
        intro hadmitted
        obtain ⟨next, hok⟩ := hiff.mpr (by simpa using hadmitted)
        rw [hadd] at hok
        cases hok
      rw [hrefused]
      exact ⟨fun _ => rfl, fun _ => untouched_refl _ _⟩
    | ok next =>
      obtain ⟨db₁, client₁⟩ := next
      obtain ⟨hrival, hadmits⟩ := hiff.mp ⟨_, hadd⟩
      have hadded := addTo_added hfit hadd
      have hgrew : Grew client₁.email client₁.subID db db₁ := by
        rw [hadded.email, hadded.subID]
        exact hadded.grew
      have hrest := addToInbounds_isOk env d 1 rest hgrew hadded.fit
        ((unrivalled_congr hadded.email hadded.subID).trans hrival)
      have hfinal := addToInbounds_grew env d 1 rest hgrew hadded.fit
      have htouched := created_not_untouched d 1 rest hfit hadd
      have hbroken : ∀ db' (err : String), ¬ Untouched client.email db db' →
          (AllOrNothing payload db db' (Except.map (fun _ : Unit => client.email) (.error err)) ↔ false = true) := by
        intro db' err hnot
        rw [hemail] at hnot
        exact ⟨fun h => absurd h hnot, fun h => nomatch h⟩
      rw [hadd] at hpresent
      dsimp only at hpresent ⊢
      rw [hadded.email] at hrest hfinal
      rw [hrival, hadmits, ← hrest]
      cases hloop : addToInbounds env d (0 + 1) db₁ client₁ rest with
      | mk db₂ result =>
        rw [hloop] at hpresent hfinal htouched
        cases result with
        | error err => simpa [Except.isOk, Except.toBool] using hbroken db₂ err htouched
        | ok client₂ =>
          cases hstamp : d.stamp with
          | some err => simpa using hbroken db₂ err htouched
          | none =>
            have hrec : payload.client.email ∈ emails db₂.records := by
              rw [← hemail]
              exact (hfinal.emails _).mpr (.inr rfl)
            have hdelivered := stampOwner_delivered hrec howner (by
              rw [← hemail, ← hsub, hlist]
              exact hpresent rfl)
            rw [← hemail] at hdelivered
            exact ⟨fun _ => rfl, fun _ => ⟨hemail, hdelivered⟩⟩

theorem orderPayload_facts
    (h : orderPayload env d buyer product orderId name tenantId = payload) :
    payload.client.email = clientName d buyer orderId name ∧ payload.client.subID = d.subID ∧
      payload.inboundIds = product.inboundIds ∧ payload.ownerId = buyer.id := by
  subst h
  simp only [orderPayload, and_self]

theorem provision_whole_iff
    (hpayload : orderPayload env d buyer product orderId name tenantId = payload) :
    AllOrNothing payload db (provision env d db buyer product orderId name tenantId).1
        (provision env d db buyer product orderId name tenantId).2 ↔
      (refusedBeforeFirst d db payload || restAdmitted d db payload) = true := by
  obtain ⟨hemail, hsubID, hinbounds, howned⟩ := orderPayload_facts hpayload
  have howner : payload.ownerId ≠ 0 := by
    have hpos := buyer.registered
    omega
  rw [provision, hpayload]
  cases hprepare : prepare d db payload with
  | error err =>
    rw [create, refusedBeforeFirst, hprepare]
    exact ⟨fun _ => rfl, fun _ => untouched_refl _ _⟩
  | ok client =>
    obtain ⟨hfit, hname, hsub, hids⟩ := orderPayload_fit (hpayload ▸ hprepare)
    rw [← hemail] at hname
    rw [← hsubID] at hsub
    rw [← hinbounds] at hids
    exact create_whole_iff hprepare hfit hname hsub hids howner

theorem provision_all_or_nothing_iff (env : Env) (d : Draws) (db : DB) (buyer : Buyer) (product : Product)
    (orderId : Nat) (name : String) (tenantId : Int) :
    AllOrNothing (orderPayload env d buyer product orderId name tenantId) db
        (provision env d db buyer product orderId name tenantId).1
        (provision env d db buyer product orderId name tenantId).2 ↔
      (refusedBeforeFirst d db (orderPayload env d buyer product orderId name tenantId) ||
        restAdmitted d db (orderPayload env d buyer product orderId name tenantId)) = true :=
  provision_whole_iff rfl

end allOrNothing

def attemptWith (plan : Except String Bool) : Attempt where
  now := 0
  uuid := ⟨"u1", by decide⟩
  secret := ⟨"s1", by decide⟩
  shadowsocksKey := fun _ => ⟨"k1", by decide⟩
  subID := ⟨"sub1", by decide⟩
  read := none
  plan
  write := none

def secondNodeUnknown : Draws where
  now := 0
  uuid := ⟨"u0", by decide⟩
  subID := ⟨"sub0", by decide⟩
  password := ⟨"p0", by decide⟩
  auth := ⟨"a0", by decide⟩
  nameToken := ⟨"t0", by decide⟩
  attempts := fun k => attemptWith (if k = 1 then .error "record not found" else .ok true)
  stamp := none

def plainEnv : Env := ⟨fun _ _ => true, "xtls-rprx-vision", fun now days => now + 86400000 * days⟩

theorem bare_keyed (tls : Bool) (id : Int) : (Inbound.mk id .vless none "" tls (some [])).id = id := rfl

def twoInbounds : DB where
  inbounds :=
    (Table.empty.insert (fun id => ⟨id, .vless, none, "", true, some []⟩) fun _ => rfl).insert
      (fun id => ⟨id, .vless, some 3, "", true, some []⟩) fun _ => rfl
  records := Table.empty
  links := []
  traffics := []

def alice : Buyer := ⟨⟨7, "alice", .member, 0, 0, 0⟩, by decide⟩

def bothInbounds : Product := ⟨5, 0, "plan", 1073741824, 30, 100, .all, [1, 2], .active⟩

theorem refused_order_leaves_config :
    (provision plainEnv secondNodeUnknown twoInbounds alice bothInbounds 1 "cfg" 0).2.toOption = none ∧
      ¬ AllOrNothing (orderPayload plainEnv secondNodeUnknown alice bothInbounds 1 "cfg" 0) twoInbounds
        (provision plainEnv secondNodeUnknown twoInbounds alice bothInbounds 1 "cfg" 0).1
        (provision plainEnv secondNodeUnknown twoInbounds alice bothInbounds 1 "cfg" 0).2 := by
  have hrefused : (provision plainEnv secondNodeUnknown twoInbounds alice bothInbounds 1 "cfg" 0).2.toOption =
      none := by decide +kernel
  refine ⟨hrefused, ?_⟩
  cases hresult : (provision plainEnv secondNodeUnknown twoInbounds alice bothInbounds 1 "cfg" 0).2 with
  | ok email =>
    rw [hresult] at hrefused
    cases hrefused
  | error err =>
    intro h
    have hbefore : twoInbounds.recorded "cfg" = false := by decide +kernel
    have hafter : (provision plainEnv secondNodeUnknown twoInbounds alice bothInbounds 1 "cfg" 0).1.recorded
        "cfg" = true := by decide +kernel
    have hname : (orderPayload plainEnv secondNodeUnknown alice bothInbounds 1 "cfg" 0).client.email =
        "cfg" := by decide +kernel
    have hsame := h.recorded
    rw [hname, hbefore, hafter] at hsame
    cases hsame

end Clients

end QuiPanel
