import QuiPanel.Exhausted

namespace QuiPanel

namespace Clients

open Keyed Outcome List

structure Alike (c c' : Client) : Prop where
  email : c'.email = c.email
  total : c'.totalGB = c.totalGB
  expiry : c'.expiryTime = c.expiryTime

def Faithful (u : Int) (db : DB) (c : Client) : Prop :=
  ∀ r ∈ db.records.rows, r.ownerId = u → r.email = Text.trimSpace c.email → SizedBy c r

structure Holding (u : Int) (db : DB) : Prop where
  unique : (emails db.records).Nodup
  trimmed : ∀ r ∈ db.records.rows, r.ownerId = u → Text.trimSpace r.email = r.email
  faithful : ∀ i, ∀ c ∈ db.settingsClients i, Faithful u db c

def Kept (u : Int) (db db' : DB) : Prop :=
  ∀ r' ∈ db'.records.rows, r'.ownerId = u → ∃ r ∈ db.records.rows, Same r r' ∧ SizedBy r.toClient r'

def Unraised (u : Int) (db db' : DB) : Prop :=
  ∀ r' ∈ db'.records.rows, r'.ownerId = u →
    ∃ r ∈ db.records.rows, r.recordId = r'.recordId ∧ r.ownerId = u ∧ SizedBy r.toClient r'

section holding

variable {env : Env} {d : Draws} {o : Attempt} {u : Int} {db db' db'' : DB} {c c' client client' : Client}
  {cs is' : List Client} {i : Int} {is : List Int} {k : Nat} {email : String}

theorem Alike.trans {c'' : Client} (h : Alike c c') (h' : Alike c' c'') : Alike c c'' :=
  ⟨h'.email.trans h.email, h'.total.trans h.total, h'.expiry.trans h.expiry⟩

theorem fillProtocolDefaults_alike (env : Env) (o : Attempt) (c : Client) (ib : Inbound) :
    Alike c (fillProtocolDefaults env o c ib) := by
  rw [fillProtocolDefaults]
  split <;> (try split) <;> exact ⟨rfl, rfl, rfl⟩

theorem clientWithInboundFlow_alike (c : Client) (ib : Inbound) : Alike c (clientWithInboundFlow c ib) := by
  rw [clientWithInboundFlow]
  split <;> exact ⟨rfl, rfl, rfl⟩

theorem Faithful.alike (h : Faithful u db c) (hc : Alike c c') : Faithful u db c' := by
  intro r hr howner hemail
  rw [hc.email] at hemail
  obtain ⟨htotal, hexpiry⟩ := h r hr howner hemail
  exact ⟨htotal.trans hc.total.symm, hexpiry.trans hc.expiry.symm⟩

theorem Kept.refl (u : Int) (db : DB) : Kept u db db := fun r hr _ => ⟨r, hr, .refl r, rfl, rfl⟩

theorem SizedBy.trans {r r' : ClientRecord} (h : SizedBy c r) (h' : SizedBy r.toClient r') : SizedBy c r' :=
  ⟨h'.total.trans h.total, h'.expiry.trans h.expiry⟩

theorem Kept.trans (h : Kept u db db') (h' : Kept u db' db'') : Kept u db db'' := by
  intro r'' hr'' howner
  obtain ⟨r', hr', hsame', hsized'⟩ := h' r'' hr'' howner
  obtain ⟨r, hr, hsame, hsized⟩ := h r' hr' (hsame'.owner.symm.trans howner)
  exact ⟨r, hr, hsame.trans hsame', hsized.trans hsized'⟩

theorem Kept.unraised (h : Kept u db db') : Unraised u db db' := by
  intro r' hr' howner
  obtain ⟨r, hr, hsame, hsized⟩ := h r' hr' howner
  exact ⟨r, hr, hsame.key.symm, hsame.owner.symm.trans howner, hsized⟩

theorem Unraised.trans (h : Unraised u db db') (h' : Unraised u db' db'') : Unraised u db db'' := by
  intro r'' hr'' howner
  obtain ⟨r', hr', hkey', howner', hsized'⟩ := h' r'' hr'' howner
  obtain ⟨r, hr, hkey, howner'', hsized⟩ := h r' hr' howner'
  exact ⟨r, hr, hkey.trans hkey', howner'', hsized.trans hsized'⟩

theorem Faithful.kept (h : Faithful u db c) (hkept : Kept u db db') : Faithful u db' c := by
  intro r' hr' howner hemail
  obtain ⟨r, hr, hsame, hsized⟩ := hkept r' hr' howner
  exact (h r hr (hsame.owner.symm.trans howner) (hsame.email.symm.trans hemail)).trans hsized

theorem Holding.carry (h : Holding u db) (hkept : Kept u db db') (hunique : (emails db'.records).Nodup)
    (hsettings : ∀ i, ∀ c ∈ db'.settingsClients i, Faithful u db c) : Holding u db' := by
  refine ⟨hunique, ?_, fun i c hc => (hsettings i c hc).kept hkept⟩
  intro r' hr' howner
  obtain ⟨r, hr, hsame, -⟩ := hkept r' hr' howner
  rw [hsame.email]
  exact h.trimmed r hr (hsame.owner.symm.trans howner)

theorem settings_saved {traffics : List ClientTraffic} {j : Int}
    (hc : c ∈ (saveClients { db with traffics } i cs).settingsClients j) :
    c ∈ cs ∨ c ∈ db.settingsClients j := by
  rw [DB.settingsClients, clientsOf_saveClients] at hc
  split at hc
  · cases hfind : db.inbounds.find i with
    | none =>
      rw [hfind] at hc
      cases hc
    | some ib =>
      rw [hfind] at hc
      exact .inl hc
  · exact .inr hc

theorem Holding.save {traffics : List ClientTraffic} (h : Holding u db) (hcs : ∀ c ∈ cs, Faithful u db c) :
    Holding u (saveClients { db with traffics } i cs) := by
  refine ⟨h.unique, h.trimmed, ?_⟩
  intro j c hc
  rcases settings_saved hc with hnew | hold
  · exact hcs c hnew
  · exact h.faithful j c hold

theorem syncInbound_kept (hu : u ≠ 0) (hcs : ∀ c ∈ cs, Faithful u db c)
    (hsync : syncInbound db i cs = .ok db') : Kept u db db' := by
  intro r' hr' howner
  rcases syncInbound_rows hsync hr' with ⟨r, hr, hfollows⟩ | ⟨c, -, -, hcreated⟩
  · refine ⟨r, hr, hfollows.same, ?_⟩
    rcases hfollows.sized with hkept | ⟨c, hc, hemail, hsized⟩
    · exact hkept
    · obtain ⟨htotal, hexpiry⟩ := hcs c hc r hr (hfollows.same.owner.symm.trans howner) hemail.symm
      exact ⟨hsized.total.trans htotal.symm, hsized.expiry.trans hexpiry.symm⟩
  · exact absurd (howner.symm.trans hcreated.owner) hu

theorem Holding.sync (hu : u ≠ 0) (h : Holding u db) (hcs : ∀ c ∈ cs, Faithful u db c)
    (hsync : syncInbound db i cs = .ok db') : Holding u db' ∧ Kept u db db' := by
  have hkept := syncInbound_kept hu hcs hsync
  refine ⟨h.carry hkept (syncInbound_nodup hsync h.unique) ?_, hkept⟩
  intro j c hc
  rw [DB.settingsClients, DB.clientsOf, (syncInbound_ok hsync).1] at hc
  exact h.faithful j c hc

theorem Holding.store {traffics : List ClientTraffic} (hu : u ≠ 0) (h : Holding u db)
    (hcs : ∀ c ∈ cs, Faithful u db c)
    (hsync : syncInbound (saveClients { db with traffics } i cs) i cs = .ok db') :
    Holding u db' ∧ Kept u db db' := by
  have hsaved : Holding u (saveClients { db with traffics } i cs) := h.save hcs
  obtain ⟨h', hkept⟩ := hsaved.sync hu hcs hsync
  exact ⟨h', hkept⟩

theorem Holding.addTo (hu : u ≠ 0) (h : Holding u db) (hclient : Faithful u db client)
    (hadd : Clients.addTo env o db client i = .ok (db', client')) :
    Holding u db' ∧ Kept u db db' ∧ Alike client client' := by
  simp only [Clients.addTo, addInboundClient, bind_ok, orErr_ok, check_ok, map_singleton] at hadd
  obtain ⟨_, -, ib, -, mid, ⟨_, -, ib', hib', _, -, cs, hcs, push, -, _, -, hsync⟩, hpair⟩ := hadd
  cases hpair
  have hfill := fillProtocolDefaults_alike env o client ib
  have hflow := clientWithInboundFlow_alike (fillProtocolDefaults env o client ib) ib
  have hstamp : ∀ c, Alike c (stampEntry o c) := fun c => ⟨rfl, rfl, rfl⟩
  have hall : ∀ c ∈ compactOrphans db cs ++ [stampEntry o
      (clientWithInboundFlow (fillProtocolDefaults env o client ib) ib)], Faithful u db c := by
    intro c hc
    rcases mem_append.mp hc with hold | hnew
    · apply h.faithful i
      rw [settingsClients_listed hib' hcs]
      exact (mem_filter.mp hold).1
    · rw [mem_singleton.mp hnew]
      exact hclient.alike ((hfill.trans hflow).trans (hstamp _))
  obtain ⟨hholding, hkept⟩ := h.store hu hall hsync
  exact ⟨hholding, hkept, hfill⟩

theorem Holding.attachToInbounds {attached : List Int} (hu : u ≠ 0) (h : Holding u db)
    (hclient : Faithful u db client) : Holding u (Clients.attachToInbounds env d attached client k db is).1 ∧
      Kept u db (Clients.attachToInbounds env d attached client k db is).1 := by
  induction is generalizing k db with
  | nil => exact ⟨h, .refl u db⟩
  | cons i is ih =>
    rw [Clients.attachToInbounds]
    split
    · exact ih h hclient
    · split
      · exact ⟨h, .refl u db⟩
      case h_2 db' client' hadd =>
        obtain ⟨h', hkept, -⟩ := h.addTo hu hclient hadd
        obtain ⟨h'', hkept'⟩ := ih h' (hclient.kept hkept)
        exact ⟨h'', hkept.trans hkept'⟩

theorem Holding.faithful_record {rec : ClientRecord} (h : Holding u db) (hrec : rec ∈ db.records.rows)
    (howner : rec.ownerId = u) (hemail : client.email = rec.email) (hsized : SizedBy client rec) :
    Faithful u db client := by
  intro r hr _ hname
  rw [hemail, h.trimmed rec hrec howner] at hname
  rw [inj_on_of_nodup_map h.unique hr hrec hname]
  exact hsized

theorem mem_record {rec : ClientRecord} (h : db.record email = some rec) : rec ∈ db.records.rows :=
  mem_of_find?_eq_some h

theorem Holding.attachByEmail (hu : u ≠ 0) (h : Holding u db)
    (howner : ∀ rec, db.record email = some rec → rec.ownerId = u) :
    Holding u (Clients.attachByEmail env d db email is).1 ∧
      Kept u db (Clients.attachByEmail env d db email is).1 := by
  rw [Clients.attachByEmail]
  split
  · exact ⟨h, .refl u db⟩
  case h_2 rec hrec =>
    split at hrec
    · cases hrec
    · exact h.attachToInbounds hu
        (h.faithful_record (mem_record hrec) (howner rec hrec) rfl ⟨rfl, rfl⟩)

theorem Holding.updateInboundClient {oldEmail : String} (hu : u ≠ 0) (h : Holding u db)
    (hclient : Faithful u db client)
    (hupdate : Clients.updateInboundClient o db i client oldEmail = .ok db') :
    Holding u db' ∧ Kept u db db' := by
  simp only [Clients.updateInboundClient, bind_ok, orErr_ok, check_ok] at hupdate
  obtain ⟨_, -, ib, hib, oldClient, -, _, -, _, -, traffics, -, push, -, _, -, hsync⟩ := hupdate
  refine h.store hu ?_ hsync
  intro c hc
  rcases mem_or_eq_of_mem_set hc with hold | rfl
  · apply h.faithful i
    rw [DB.settingsClients, DB.clientsOf, hib]
    exact hold
  · exact hclient.alike ⟨rfl, rfl, rfl⟩

theorem Holding.updateInInbounds {oldEmail : String} {clientId : Int} (hu : u ≠ 0) (h : Holding u db)
    (hclient : Faithful u db client) :
    Holding u (Clients.updateInInbounds env d oldEmail clientId k db client is).1 ∧
      Kept u db (Clients.updateInInbounds env d oldEmail clientId k db client is).1 := by
  induction is generalizing k db client with
  | nil => exact ⟨h, .refl u db⟩
  | cons i is ih =>
    rw [Clients.updateInInbounds]
    split
    · have hunlinked : Holding u { db with links := db.links.filter fun l =>
          !(l.clientId == clientId && l.inboundId == i) } := ⟨h.unique, h.trimmed, h.faithful⟩
      exact ih hunlinked hclient
    case h_2 ib hib =>
      split
      · exact ih h hclient
      · have hfill := fillProtocolDefaults_alike env (d.attempts k) client ib
        have hflow := clientWithInboundFlow_alike (fillProtocolDefaults env (d.attempts k) client ib) ib
        dsimp only
        split
        · exact ⟨h, .refl u db⟩
        case h_2 db' hupdate =>
          obtain ⟨h', hkept⟩ := h.updateInboundClient hu (hclient.alike (hfill.trans hflow)) hupdate
          obtain ⟨h'', hkept'⟩ := ih h' ((hclient.alike hfill).kept hkept)
          exact ⟨h'', hkept.trans hkept'⟩

def carried (db : DB) (e : String) : Prop := ∃ i, ∃ c ∈ db.settingsClients i, Text.trimSpace c.email = e

def NameKept (db : DB) (rec : ClientRecord) (e : String) : Prop :=
  e = rec.email ∨ Text.trimSpace e = e ∧ ¬ carried db e

variable {existing : ClientRecord}

theorem prepareUpdate_alike
    (h : prepareUpdate d db existing client = .ok client') : Alike client client' := by
  simp only [prepareUpdate, bind_ok, check_ok] at h
  obtain ⟨_, -, _, -, _, -, _, -, h⟩ := h
  cases h
  exact ⟨rfl, rfl, rfl⟩

theorem prepareUpdate_free
    (h : prepareUpdate d db existing client = .ok client') (hne : client.email ≠ existing.email) :
    ∀ r ∈ db.records.rows, r.email = client.email → r.recordId = existing.recordId := by
  simp only [prepareUpdate, bind_ok, check_ok] at h
  obtain ⟨_, -, _, -, _, -, _, hfree, -⟩ := h
  intro r hr hemail
  by_contra hother
  simp only [Bool.not_eq_true', decide_eq_false_iff_not, not_and, any_eq_true, not_exists] at hfree
  exact hfree hne r hr (by simpa using ⟨hemail, hother⟩)

theorem rows_renameRecord (db : DB) (recordId : Int) (e : String) :
    (renameRecord db recordId e).records.rows =
      db.records.rows.map fun r => if r.recordId == recordId then { r with email := e } else r :=
  rfl

theorem mem_renameRecord {recordId : Int} {e : String} {r' : ClientRecord}
    (hr' : r' ∈ (renameRecord db recordId e).records.rows) :
    r' ∈ db.records.rows ∧ r'.recordId ≠ recordId ∨
      ∃ r ∈ db.records.rows, r.recordId = recordId ∧ r' = { r with email := e } := by
  rw [rows_renameRecord] at hr'
  obtain ⟨r, hr, rfl⟩ := mem_map.mp hr'
  split
  case isTrue hid => exact .inr ⟨r, hr, by simpa using hid, rfl⟩
  case isFalse hid => exact .inl ⟨hr, by simpa using hid⟩

theorem renameRecord_unraised (u : Int) (db : DB) (recordId : Int) (e : String) :
    Unraised u db (renameRecord db recordId e) := by
  intro r' hr' howner
  rcases mem_renameRecord hr' with ⟨hr, -⟩ | ⟨r, hr, -, rfl⟩
  · exact ⟨r', hr, rfl, howner, rfl, rfl⟩
  · exact ⟨r, hr, rfl, howner, rfl, rfl⟩

theorem Holding.renameRecord {e : String} (h : Holding u db)
    (hexisting : existing ∈ db.records.rows) (htrim : Text.trimSpace e = e) (hcarried : ¬ carried db e)
    (hfree : ∀ r ∈ db.records.rows, r.email = e → r.recordId = existing.recordId) :
    Holding u (Clients.renameRecord db existing.recordId e) := by
  constructor
  case unique =>
    rw [emails, rows_renameRecord, map_map]
    apply List.Nodup.map_on _ (List.Nodup.of_map _ db.records.nodup)
    intro r hr r' hr' hsame
    have hone : ∀ s ∈ db.records.rows, s.recordId = existing.recordId → s = existing :=
      fun s hs hid => Table.eq_of_key hs hexisting hid
    by_cases hid : r.recordId = existing.recordId
    · by_cases hid' : r'.recordId = existing.recordId
      · rw [hone r hr hid, hone r' hr' hid']
      · have hname : r'.email = e := by simpa [hid, hid'] using hsame.symm
        exact absurd (hfree r' hr' hname) hid'
    · by_cases hid' : r'.recordId = existing.recordId
      · have hname : r.email = e := by simpa [hid, hid'] using hsame
        exact absurd (hfree r hr hname) hid
      · have hname : r.email = r'.email := by simpa [hid, hid'] using hsame
        exact inj_on_of_nodup_map h.unique hr hr' hname
  case trimmed =>
    intro r' hr' howner
    rcases mem_renameRecord hr' with ⟨hr, -⟩ | ⟨r, -, -, rfl⟩
    · exact h.trimmed r' hr howner
    · exact htrim
  case faithful =>
    intro i c hc r' hr' howner hemail
    rcases mem_renameRecord hr' with ⟨hr, -⟩ | ⟨r, -, -, rfl⟩
    · exact h.faithful i c hc r' hr howner hemail
    · exact absurd ⟨i, c, hc, hemail.symm⟩ hcarried

theorem Holding.renamed (h : Holding u db) (hexisting : existing ∈ db.records.rows)
    (howner : existing.ownerId = u) (hsized : SizedBy client existing)
    (hname : NameKept db existing client.email)
    (hfree : client.email ≠ existing.email →
      ∀ r ∈ db.records.rows, r.email = client.email → r.recordId = existing.recordId) :
    ∃ db', (if client.email = existing.email then db
        else Clients.renameRecord db existing.recordId client.email) = db' ∧
      Holding u db' ∧ Unraised u db db' ∧ Faithful u db' client := by
  refine ⟨_, rfl, ?_⟩
  split
  case isTrue hsame =>
    exact ⟨h, (Kept.refl u db).unraised, h.faithful_record hexisting howner hsame hsized⟩
  case isFalse hne =>
    obtain ⟨htrim, hcarried⟩ := hname.resolve_left hne
    have hholding := h.renameRecord hexisting htrim hcarried (hfree hne)
    have hrow : { existing with email := client.email } ∈
        (Clients.renameRecord db existing.recordId client.email).records.rows := by
      rw [rows_renameRecord]
      exact mem_map.mpr ⟨existing, hexisting, if_pos (beq_self_eq_true _)⟩
    exact ⟨hholding, renameRecord_unraised u db _ _,
      hholding.faithful_record hrow howner rfl ⟨hsized.total, hsized.expiry⟩⟩

theorem setReverse_kept {reverse : Option String} {now : Int} (h : Holding u db) :
    Holding u (setReverse db i reverse now) ∧ Kept u db (setReverse db i reverse now) := by
  have hrows : (setReverse db i reverse now).records.rows = db.records.rows.map fun r =>
      if r.recordId == i then { r with reverse, updatedAt := now } else r := rfl
  have hkept : Kept u db (setReverse db i reverse now) := by
    intro r' hr' _
    rw [hrows] at hr'
    obtain ⟨r, hr, rfl⟩ := mem_map.mp hr'
    refine ⟨r, hr, ?_⟩
    split <;> exact ⟨⟨rfl, rfl, rfl, rfl⟩, rfl, rfl⟩
  refine ⟨h.carry hkept ?_ h.faithful, hkept⟩
  have hemails : emails (setReverse db i reverse now).records = emails db.records := by
    rw [emails, hrows, map_map]
    apply map_congr_left
    intro r _
    simp only [Function.comp_apply]
    split <;> rfl
  rw [hemails]
  exact h.unique

theorem Holding.update {inboundFilter : List Int} (hu : u ≠ 0) (h : Holding u db)
    (hfind : db.records.find i = some existing) (howner : existing.ownerId = u)
    (hsized : SizedBy client existing) (hname : NameKept db existing client.email) :
    Holding u (Clients.update env d db i client inboundFilter).1 ∧
      Unraised u db (Clients.update env d db i client inboundFilter).1 := by
  obtain ⟨hexisting, rfl⟩ := Table.mem_of_find hfind
  rw [Clients.update, hfind]
  dsimp only
  split
  · exact ⟨h, (Kept.refl u db).unraised⟩
  case h_2 client' hprepare =>
    have halike := prepareUpdate_alike hprepare
    have hsized' : SizedBy client' existing :=
      ⟨hsized.total.trans halike.total.symm, hsized.expiry.trans halike.expiry.symm⟩
    have hfree := prepareUpdate_free hprepare
    rw [← halike.email] at hname hfree
    obtain ⟨db₁, hrenamed, h₁, hunraised, hfaithful⟩ := h.renamed hexisting howner hsized' hname hfree
    rw [hrenamed]
    split
    · exact ⟨h₁, hunraised⟩
    · generalize (if inboundFilter = [] then db.inboundIdsOf existing.recordId
        else (db.inboundIdsOf existing.recordId).filter inboundFilter.contains) = ids
      have hloop : Holding u (Clients.updateInInbounds env d existing.email existing.recordId 0 db₁ client'
          ids).1 ∧ Kept u db₁ (Clients.updateInInbounds env d existing.email existing.recordId 0 db₁ client'
            ids).1 := h₁.updateInInbounds hu hfaithful
      obtain ⟨h₂, hkept⟩ := hloop
      generalize Clients.updateInInbounds env d existing.email existing.recordId 0 db₁ client' ids =
        looped at h₂ hkept ⊢
      obtain ⟨db₂, result⟩ := looped
      cases result with
      | error err => exact ⟨h₂, hunraised.trans hkept.unraised⟩
      | ok last =>
        simp only [andThen]
        split
        · exact ⟨h₂, hunraised.trans hkept.unraised⟩
        · obtain ⟨h₃, hkept'⟩ := @setReverse_kept u db₂ existing.recordId
            (last.reverse.filter (Text.trimSpace · != "")) d.now h₂
          exact ⟨h₃, hunraised.trans (hkept.trans hkept').unraised⟩

theorem Holding.updateByEmail {inboundFilter : List Int} (hu : u ≠ 0) (h : Holding u db)
    (hrecord : ∀ rec, db.record email = some rec →
      rec.ownerId = u ∧ SizedBy client rec ∧ NameKept db rec client.email) :
    Holding u (Clients.updateByEmail env d db email client inboundFilter).1 ∧
      Unraised u db (Clients.updateByEmail env d db email client inboundFilter).1 := by
  rw [Clients.updateByEmail]
  split
  · exact ⟨h, (Kept.refl u db).unraised⟩
  case h_2 rec hrec =>
    split at hrec
    · cases hrec
    · obtain ⟨howner, hsized, hname⟩ := hrecord rec hrec
      exact h.update hu (Table.find_of_mem (mem_record hrec)) howner hsized hname

theorem Holding.rotate {opts : RotateOptions} (hu : u ≠ 0) (h : Holding u db)
    (hrecord : ∀ rec, db.record email = some rec →
      rec.ownerId = u ∧ NameKept db rec (rotated d rec opts).email) :
    Holding u (Clients.rotate env d db email opts).1 ∧
      Unraised u db (Clients.rotate env d db email opts).1 := by
  rw [Clients.rotate]
  split
  · exact ⟨h, (Kept.refl u db).unraised⟩
  case h_2 rec hrec =>
    apply h.updateByEmail hu
    intro rec' hrec'
    obtain rfl := Option.some.inj (hrec.symm.trans hrec')
    obtain ⟨howner, hname⟩ := hrecord rec hrec
    refine ⟨howner, ?_, hname⟩
    rw [rotated]
    dsimp only
    split <;> split <;> exact ⟨rfl, rfl⟩

theorem Holding.traffics (h : Holding u db) (traffics : List ClientTraffic) :
    Holding u { db with traffics } ∧ Kept u db { db with traffics } :=
  ⟨⟨h.unique, h.trimmed, h.faithful⟩, .refl u db⟩

theorem Holding.delInboundClientByEmail {keepTraffic : Bool} (hu : u ≠ 0) (h : Holding u db) :
    Holding u (Clients.delInboundClientByEmail o db i email keepTraffic).1 ∧
      Kept u db (Clients.delInboundClientByEmail o db i email keepTraffic).1 := by
  rw [Clients.delInboundClientByEmail]
  cases hib : (db.inbounds.find i).map (·.clients) with
  | none => exact ⟨h, .refl u db⟩
  | some clients =>
    obtain ⟨ib, hfind, rfl⟩ := Option.map_eq_some_iff.mp hib
    cases hclients : ib.clients with
    | none => exact ⟨h, .refl u db⟩
    | some clients =>
      dsimp only
      split
      · exact ⟨h, .refl u db⟩
      · have hleft : ∀ c ∈ compactOrphans db (clients.filter (·.email != email)), Faithful u db c := by
          intro c hc
          apply h.faithful i
          rw [settingsClients_listed hfind hclients]
          exact (mem_filter.mp (mem_filter.mp hc).1).1
        generalize compactOrphans db (clients.filter (·.email != email)) = left at hleft ⊢
        have htraffics : ∃ traffics, (if email ≠ "" ∧ (!emailUsedByOtherInbounds db email i) = true ∧
            (!keepTraffic) = true then { db with traffics := delClientStat db.traffics email } else db) =
              { db with traffics } := by
          split
          · exact ⟨_, rfl⟩
          · exact ⟨db.traffics, rfl⟩
        obtain ⟨traffics, heq⟩ := htraffics
        rw [heq]
        split
        · exact h.traffics traffics
        · exact h.traffics traffics
        · split
          · exact ⟨h.save hleft, .refl u db⟩
          case h_2 db' hsync => exact h.store hu hleft hsync

theorem Holding.delFromInbounds (hu : u ≠ 0) (h : Holding u db) :
    Holding u (Clients.delFromInbounds d email k db is).1 ∧
      Kept u db (Clients.delFromInbounds d email k db is).1 := by
  induction is generalizing k db with
  | nil => exact ⟨h, .refl u db⟩
  | cons i is ih =>
    rw [Clients.delFromInbounds]
    split
    · exact ih h
    · obtain ⟨h', hkept⟩ := @Holding.delInboundClientByEmail (d.attempts k) u db i email false hu h
      generalize Clients.delInboundClientByEmail (d.attempts k) db i email false = deleted at h' hkept ⊢
      obtain ⟨db', result⟩ := deleted
      cases result with
      | error err => exact ⟨h', hkept⟩
      | ok _ =>
        obtain ⟨h'', hkept'⟩ := ih (k := k + 1) h'
        exact ⟨h'', hkept.trans hkept'⟩

theorem Holding.deleteByEmail {keepTraffic : Bool} (hu : u ≠ 0) (h : Holding u db) :
    Holding u (Clients.deleteByEmail d db email keepTraffic).1 ∧
      Kept u db (Clients.deleteByEmail d db email keepTraffic).1 := by
  rw [Clients.deleteByEmail]
  split
  case h_1 existing hexisting =>
    have hloop : Holding u (Clients.delFromInbounds d email 0 db (db.inboundIdsOf existing.recordId)).1 ∧
        Kept u db (Clients.delFromInbounds d email 0 db (db.inboundIdsOf existing.recordId)).1 :=
      h.delFromInbounds hu
    obtain ⟨h', hkept⟩ := hloop
    generalize Clients.delFromInbounds d email 0 db (db.inboundIdsOf existing.recordId) = deleted
      at h' hkept ⊢
    obtain ⟨db', result⟩ := deleted
    cases result with
    | error err => exact ⟨h', hkept⟩
    | ok _ =>
      simp only [andThen]
      split
      · exact ⟨h', hkept⟩
      · have hdropped : Kept u db' { db' with
            records := db'.records.delete (·.recordId == existing.recordId)
            links := db'.links.filter (·.clientId != existing.recordId)
            traffics := if keepTraffic then db'.traffics else delClientStat db'.traffics email } := by
          intro r hr _
          exact ⟨r, (Table.mem_delete.mp hr).1, .refl r, rfl, rfl⟩
        refine ⟨h'.carry hdropped ?_ h'.faithful, hkept.trans hdropped⟩
        exact h'.unique.sublist (filter_sublist.map _)
  case h_2 =>
    dsimp only
    split
    · exact ⟨h, .refl u db⟩
    · generalize (db.inbounds.rows.filter fun ib => (ib.clients.getD []).any (·.email == email)).map
        (·.id) = holders
      have hloop : Holding u (Clients.delFromInbounds d email 0 db holders).1 ∧
          Kept u db (Clients.delFromInbounds d email 0 db holders).1 := h.delFromInbounds hu
      obtain ⟨h', hkept⟩ := hloop
      generalize Clients.delFromInbounds d email 0 db holders = deleted at h' hkept ⊢
      obtain ⟨db', result⟩ := deleted
      cases result with
      | error err => exact ⟨h', hkept⟩
      | ok _ =>
        obtain ⟨h'', hkept'⟩ := h'.traffics
          (if keepTraffic then db'.traffics else delClientStat db'.traffics email)
        exact ⟨h'', hkept.trans hkept'⟩

theorem Holding.resetInInbounds (h : Holding u db) :
    Holding u (Clients.resetInInbounds d email k db is).1 ∧
      Kept u db (Clients.resetInInbounds d email k db is).1 := by
  induction is generalizing k db with
  | nil => exact ⟨h, .refl u db⟩
  | cons i is ih =>
    rw [Clients.resetInInbounds]
    split
    · exact ⟨h, .refl u db⟩
    case h_2 db' hreset =>
      simp only [resetClientTraffic, bind_ok, orErr_ok, check_ok] at hreset
      obtain ⟨t, -, _, -, _, -, _, -, hdb⟩ := hreset
      cases hdb
      obtain ⟨h', hkept⟩ := h.traffics (resetStat db.traffics email)
      obtain ⟨h'', hkept'⟩ := ih h'
      exact ⟨h'', hkept.trans hkept'⟩

theorem Holding.resetTrafficByEmail {reset : Draws} (hu : u ≠ 0) (h : Holding u db)
    (howner : ∀ rec, db.record email = some rec → rec.ownerId = u) :
    Holding u (Clients.resetTrafficByEmail env d reset db email).1 ∧
      Unraised u db (Clients.resetTrafficByEmail env d reset db email).1 := by
  rw [Clients.resetTrafficByEmail]
  split
  · exact ⟨h, (Kept.refl u db).unraised⟩
  case h_2 rec hrec =>
    split at hrec
    · cases hrec
    · have henabled : Holding u (enableForReset env d db rec) ∧
          Unraised u db (enableForReset env d db rec) := by
        rw [enableForReset]
        split
        · exact ⟨h, (Kept.refl u db).unraised⟩
        · exact h.update hu (Table.find_of_mem (mem_record hrec)) (howner rec hrec) ⟨rfl, rfl⟩ (.inl rfl)
      obtain ⟨h', hunraised⟩ := henabled
      dsimp only
      split
      · split
        · exact ⟨h', hunraised⟩
        · obtain ⟨h'', hkept⟩ := h'.traffics (resetStat (enableForReset env d db rec).traffics email)
          exact ⟨h'', hunraised.trans hkept.unraised⟩
      · obtain ⟨h'', hkept⟩ : Holding u (Clients.resetInInbounds reset email 0 (enableForReset env d db rec)
            (db.inboundIdsOf rec.recordId)).1 ∧ Kept u (enableForReset env d db rec) (Clients.resetInInbounds
              reset email 0 (enableForReset env d db rec) (db.inboundIdsOf rec.recordId)).1 :=
          h'.resetInInbounds
        exact ⟨h'', hunraised.trans hkept.unraised⟩

end holding

section creating

variable {env : Env} {d : Draws} {o : Attempt} {u : Int} {db db' : DB} {client client' : Client}
  {payload : ClientCreatePayload} {cs : List Client} {i : Int} {is : List Int} {k : Nat}

structure Fresh (db : DB) (e : String) : Prop where
  trimmed : Text.trimSpace e = e
  unrecorded : e ∉ emails db.records
  uncarried : ¬ carried db e

def SameSize (client c : Client) : Prop := c.totalGB = client.totalGB ∧ c.expiryTime = client.expiryTime

structure Uniform (u : Int) (client : Client) (db : DB) : Prop where
  trimmed : Text.trimSpace client.email = client.email
  entries : ∀ i, ∀ c ∈ db.settingsClients i, Text.trimSpace c.email = client.email → SameSize client c
  rows : ∀ r ∈ db.records.rows, r.email = client.email → SizedBy client r ∧ r.ownerId ≠ u

theorem Fresh.uniform (h : Fresh db client.email) : Uniform u client db := by
  refine ⟨h.trimmed, ?_, ?_⟩
  · intro i c hc he
    exact absurd ⟨i, c, hc, he⟩ h.uncarried
  · intro r hr he
    exact absurd (mem_map.mpr ⟨r, hr, he⟩) h.unrecorded

theorem Uniform.faithful (h : Uniform u client db) : Faithful u db client := by
  intro r hr howner hemail
  rw [h.trimmed] at hemail
  exact absurd howner (h.rows r hr hemail).2

theorem Uniform.alike (h : Uniform u client db) (hc : Alike client client') : Uniform u client' db := by
  refine ⟨by rw [hc.email, h.trimmed], ?_, ?_⟩
  · intro i c hin he
    obtain ⟨htotal, hexpiry⟩ := h.entries i c hin (he.trans hc.email)
    exact ⟨htotal.trans hc.total.symm, hexpiry.trans hc.expiry.symm⟩
  · intro r hr he
    obtain ⟨⟨htotal, hexpiry⟩, howner⟩ := h.rows r hr (he.trans hc.email)
    exact ⟨⟨htotal.trans hc.total.symm, hexpiry.trans hc.expiry.symm⟩, howner⟩

theorem Uniform.store {traffics : List ClientTraffic} (hu : u ≠ 0) (h : Uniform u client db)
    (hcs : ∀ c ∈ cs, Text.trimSpace c.email = client.email → SameSize client c)
    (hsync : syncInbound (saveClients { db with traffics } i cs) i cs = .ok db') : Uniform u client db' := by
  refine ⟨h.trimmed, ?_, ?_⟩
  · intro j c hc he
    rw [DB.settingsClients, DB.clientsOf, (syncInbound_ok hsync).1] at hc
    rcases settings_saved hc with hnew | hold
    · exact hcs c hnew he
    · exact h.entries j c hold he
  · intro r' hr' he
    rcases syncInbound_rows hsync hr' with ⟨r, hr, hfollows⟩ | ⟨c, hc, -, hcreated⟩
    · have hname := hfollows.same.email.symm.trans he
      obtain ⟨hsized, howner⟩ := h.rows r hr hname
      refine ⟨?_, fun h' => howner (hfollows.same.owner.symm.trans h')⟩
      rcases hfollows.sized with hkept | ⟨c, hc, hemail, hsized'⟩
      · exact hsized.trans hkept
      · obtain ⟨htotal, hexpiry⟩ := hcs c hc (hemail.trans hname)
        exact ⟨hsized'.total.trans htotal, hsized'.expiry.trans hexpiry⟩
    · have hname : Text.trimSpace c.email = client.email := by
        rw [← hcreated.email, he, h.trimmed]
      obtain ⟨htotal, hexpiry⟩ := hcs c hc hname
      exact ⟨⟨hcreated.sized.total.trans htotal, hcreated.sized.expiry.trans hexpiry⟩,
        fun h' => hu (h'.symm.trans hcreated.owner)⟩

theorem Uniform.addTo (hu : u ≠ 0) (h : Uniform u client db)
    (hadd : Clients.addTo env o db client i = .ok (db', client')) : Uniform u client db' := by
  simp only [Clients.addTo, addInboundClient, bind_ok, orErr_ok, check_ok, map_singleton] at hadd
  obtain ⟨_, -, ib, -, mid, ⟨_, -, ib', hib', _, -, cs, hcs, push, -, _, -, hsync⟩, hpair⟩ := hadd
  cases hpair
  refine h.store hu ?_ hsync
  intro c hc he
  rcases mem_append.mp hc with hold | hnew
  · apply h.entries i c _ he
    rw [settingsClients_listed hib' hcs]
    exact (mem_filter.mp hold).1
  · rw [mem_singleton.mp hnew]
    have hfill := fillProtocolDefaults_alike env o client ib
    have hflow := clientWithInboundFlow_alike (fillProtocolDefaults env o client ib) ib
    exact ⟨hflow.total.trans hfill.total, hflow.expiry.trans hfill.expiry⟩

theorem Uniform.addToInbounds (hu : u ≠ 0) (hholding : Holding u db) (h : Uniform u client db) :
    Holding u (Clients.addToInbounds env d k db client is).1 ∧
      Kept u db (Clients.addToInbounds env d k db client is).1 ∧
      Uniform u client (Clients.addToInbounds env d k db client is).1 := by
  induction is generalizing k db client with
  | nil => exact ⟨hholding, .refl u db, h⟩
  | cons i is ih =>
    rw [Clients.addToInbounds]
    split
    · exact ⟨hholding, .refl u db, h⟩
    case h_2 db' client' hadd =>
      obtain ⟨hholding', hkept, halike⟩ := hholding.addTo hu h.faithful hadd
      obtain ⟨hholding'', hkept', huniform⟩ := ih (k := k + 1) hholding' ((h.addTo hu hadd).alike halike)
      exact ⟨hholding'', hkept.trans hkept',
        huniform.alike ⟨halike.email.symm, halike.total.symm, halike.expiry.symm⟩⟩

theorem prepare_alike (h : prepare d db payload = .ok client) : Alike payload.client client := by
  simp only [prepare, bind_ok, check_ok] at h
  obtain ⟨_, -, _, -, _, -, _, -, _, -, _, -, h⟩ := h
  cases h
  exact ⟨rfl, rfl, rfl⟩

theorem rows_stampOwner (db : DB) (e : String) (payload : ClientCreatePayload) :
    (stampOwner db e payload).records.rows =
      db.records.rows.map fun r => if r.email == e then stampRecord payload r else r :=
  rfl

theorem emails_stampOwner (db : DB) (e : String) (payload : ClientCreatePayload) :
    emails (stampOwner db e payload).records = emails db.records := by
  rw [emails, rows_stampOwner, map_map]
  apply map_congr_left
  intro r _
  simp only [Function.comp_apply]
  split <;> rfl

def Gained (u : Int) (client : Client) (db db' : DB) : Prop :=
  ∀ r' ∈ db'.records.rows, r'.ownerId = u →
    (∃ r ∈ db.records.rows, r.recordId = r'.recordId ∧ r.ownerId = u ∧ SizedBy r.toClient r') ∨
      r'.email = client.email ∧ SizedBy client r'

theorem Uniform.stampOwner (hholding : Holding u db) (h : Uniform u client db) :
    Holding u (Clients.stampOwner db client.email payload) ∧
      Gained u client db (Clients.stampOwner db client.email payload) := by
  have hrows : ∀ r' ∈ (Clients.stampOwner db client.email payload).records.rows,
      (r' ∈ db.records.rows ∧ r'.email ≠ client.email) ∨ (r'.email = client.email ∧ SizedBy client r') := by
    intro r' hr'
    rw [rows_stampOwner] at hr'
    obtain ⟨r, hr, rfl⟩ := mem_map.mp hr'
    split
    case isTrue he =>
      have hname : r.email = client.email := by simpa using he
      obtain ⟨hsized, -⟩ := h.rows r hr hname
      exact .inr ⟨hname, hsized.total, hsized.expiry⟩
    case isFalse he => exact .inl ⟨hr, by simpa using he⟩
  refine ⟨⟨?_, ?_, ?_⟩, ?_⟩
  · rw [emails_stampOwner]
    exact hholding.unique
  · intro r' hr' howner
    rcases hrows r' hr' with ⟨hold, -⟩ | ⟨hname, -⟩
    · exact hholding.trimmed r' hold howner
    · rw [hname, h.trimmed]
  · intro j c hc r' hr' howner hemail
    rcases hrows r' hr' with ⟨hold, -⟩ | ⟨hname, hsized⟩
    · exact hholding.faithful j c hc r' hold howner hemail
    · obtain ⟨htotal, hexpiry⟩ := h.entries j c hc (hemail.symm.trans hname)
      exact ⟨hsized.total.trans htotal.symm, hsized.expiry.trans hexpiry.symm⟩
  · intro r' hr' howner
    rcases hrows r' hr' with ⟨hold, -⟩ | hnew
    · exact .inl ⟨r', hold, rfl, howner, rfl, rfl⟩
    · exact .inr hnew

theorem Holding.create (hu : u ≠ 0) (h : Holding u db) (hfresh : Fresh db payload.client.email) :
    Holding u (Clients.create env d db payload).1 ∧
      Gained u payload.client db (Clients.create env d db payload).1 ∧
      ((Clients.create env d db payload).2.isOk = false → Unraised u db (Clients.create env d db payload).1) := by
  rw [Clients.create]
  split
  · exact ⟨h, fun r hr howner => .inl ((Kept.refl u db).unraised r hr howner),
      fun _ => (Kept.refl u db).unraised⟩
  case h_2 client hprepare =>
    have halike := prepare_alike hprepare
    have huniform : Uniform u client db := hfresh.uniform.alike halike
    have hloop : Holding u (Clients.addToInbounds env d 0 db client payload.inboundIds).1 ∧
        Kept u db (Clients.addToInbounds env d 0 db client payload.inboundIds).1 ∧
        Uniform u client (Clients.addToInbounds env d 0 db client payload.inboundIds).1 :=
      huniform.addToInbounds hu h
    generalize Clients.addToInbounds env d 0 db client payload.inboundIds = looped at hloop ⊢
    obtain ⟨db', result⟩ := looped
    obtain ⟨h', hkept, huniform'⟩ := hloop
    cases result with
    | error err => exact ⟨h', fun r hr howner => .inl (hkept.unraised r hr howner), fun _ => hkept.unraised⟩
    | ok last =>
      dsimp only
      split
      · exact ⟨h', fun r hr howner => .inl (hkept.unraised r hr howner), fun _ => hkept.unraised⟩
      · obtain ⟨hstamped, hgained⟩ := @Uniform.stampOwner u db' client payload h' huniform'
        refine ⟨hstamped, ?_, fun hfailed => by cases hfailed⟩
        intro r' hr' howner
        rcases hgained r' hr' howner with ⟨r, hr, hkey, howner', hsized⟩ | ⟨hname, hsized⟩
        · obtain ⟨r₀, hr₀, hkey₀, howner₀, hsized₀⟩ := hkept.unraised r hr howner'
          exact .inl ⟨r₀, hr₀, hkey₀.trans hkey, howner₀, hsized₀.trans hsized⟩
        · exact .inr ⟨hname.trans halike.email, hsized.total.trans halike.total,
            hsized.expiry.trans halike.expiry⟩

theorem addToInbounds_persists : Persists db.records (addToInbounds env d k db client is).1.records := by
  induction is generalizing k db client with
  | nil => exact .refl _
  | cons i is ih =>
    rw [addToInbounds]
    split
    · exact .refl _
    case h_2 db' client' hadd =>
      simp only [addTo, addInboundClient, bind_ok, orErr_ok, check_ok, map_singleton] at hadd
      obtain ⟨_, -, ib, -, mid, ⟨_, -, ib', -, _, -, cs, -, push, -, _, -, hsync⟩, hpair⟩ := hadd
      cases hpair
      have hpersists := syncInbound_persists hsync
      exact Persists.trans hpersists ih

theorem create_persists : Persists db.records (create env d db payload).1.records := by
  rw [create]
  split
  · exact .refl _
  case h_2 client hprepare =>
    have hloop : Persists db.records (addToInbounds env d 0 db client payload.inboundIds).1.records :=
      addToInbounds_persists
    generalize addToInbounds env d 0 db client payload.inboundIds = looped at hloop ⊢
    obtain ⟨db', result⟩ := looped
    cases result with
    | error err => exact hloop
    | ok last =>
      dsimp only
      split
      · exact hloop
      · refine hloop.trans ?_
        intro r hr
        rw [rows_stampOwner]
        refine ⟨_, mem_map.mpr ⟨r, hr, rfl⟩, ?_⟩
        split <;> exact ⟨rfl, rfl⟩

theorem create_new_key {r r' : ClientRecord} (hfresh : Fresh db payload.client.email)
    (hr : r ∈ db.records.rows) (hr' : r' ∈ (create env d db payload).1.records.rows)
    (hemail : r'.email = payload.client.email) : r.recordId ≠ r'.recordId := by
  intro hkey
  obtain ⟨r₁, hr₁, hkey₁, hemail₁⟩ := @create_persists env d db payload r hr
  obtain rfl := Table.eq_of_key hr₁ hr' (hkey₁.trans hkey)
  exact hfresh.unrecorded (mem_map.mpr ⟨r, hr, hemail₁.symm.trans hemail⟩)

end creating

section granting

variable {u : Int} {db db' : DB} {client : Client} {p : Panel}

def raise (old new : Int) : WithTop Int :=
  if allowance old < allowance new then if 0 < new then ((new - old : Int) : WithTop Int) else ⊤ else 0

def grantedTo (u : Int) (db : DB) (r' : ClientRecord) : WithTop Int :=
  match (db.records.find r'.recordId).filter (·.ownerId == u) with
  | none => allowance r'.totalGB
  | some r => raise r.totalGB r'.totalGB

def stepGrant (u : Int) (db db' : DB) : WithTop Int :=
  ((db'.records.rows.filter (·.ownerId == u)).map (grantedTo u db)).sum

def lifetime (expiryTime : Int) : WithTop Int := if expiryTime = 0 then ⊤ else expiryTime

def Prolonged (u : Int) (db db' : DB) : Prop :=
  ∃ r ∈ db.records.rows, ∃ r' ∈ db'.records.rows, r.recordId = r'.recordId ∧ r.ownerId = u ∧
    r'.ownerId = u ∧ lifetime r.expiryTime < lifetime r'.expiryTime

def chargedFor (cs : List Charge) : WithTop Int :=
  if 0 < (cs.map (·.cost)).sum then (cs.head?.map fun c => allowance c.totalBytes).getD 0 else 0

theorem allowance_nonneg (total : Int) : 0 ≤ allowance total := by
  rw [allowance]
  split
  case isTrue hpos => exact WithTop.coe_le_coe.mpr hpos.le
  case isFalse => exact le_top

theorem chargedFor_nonneg (cs : List Charge) : 0 ≤ chargedFor cs := by
  rw [chargedFor]
  split
  · cases cs.head? with
    | none => exact le_refl _
    | some c => exact allowance_nonneg _
  · exact le_refl _

theorem raise_self (total : Int) : raise total total = 0 := if_neg (lt_irrefl _)

theorem raise_le (old new : Int) : raise old new ≤ allowance new := by
  rw [raise]
  split
  case isTrue hlt =>
    split
    case isTrue hpos =>
      have hold : 0 < old := by
        by_contra hnot
        rw [allowance, if_neg hnot] at hlt
        exact not_top_lt hlt
      rw [allowance, if_pos hpos]
      exact WithTop.coe_le_coe.mpr (by omega)
    case isFalse hnot =>
      rw [allowance, if_neg hnot]
  case isFalse => exact allowance_nonneg new

theorem grantedTo_kept {r r' : ClientRecord} (hr : r ∈ db.records.rows) (hkey : r.recordId = r'.recordId)
    (howner : r.ownerId = u) (hsized : SizedBy r.toClient r') : grantedTo u db r' = 0 := by
  have hfind : (db.records.find r'.recordId).filter (·.ownerId == u) = some r := by
    rw [← hkey, Table.find_of_mem hr, Option.filter_some, if_pos (by simpa using howner)]
  rw [grantedTo, hfind]
  dsimp only
  rw [hsized.total]
  exact raise_self _

theorem grantedTo_le (r' : ClientRecord) : grantedTo u db r' ≤ allowance r'.totalGB := by
  rw [grantedTo]
  split
  · exact le_refl _
  · exact raise_le ..

theorem stepGrant_unraised (h : Unraised u db db') : stepGrant u db db' = 0 := by
  rw [stepGrant]
  apply sum_eq_zero
  intro g hg
  obtain ⟨r', hr', rfl⟩ := mem_map.mp hg
  obtain ⟨hmem, howner⟩ := mem_filter.mp hr'
  obtain ⟨r, hr, hkey, howner', hsized⟩ := h r' hmem (by simpa using howner)
  exact grantedTo_kept hr hkey howner' hsized

theorem sum_le_single {α : Type} {key : α → String} {name : String} {f : α → WithTop Int} {v : WithTop Int}
    (hv : 0 ≤ v) {as : List α} (hnodup : (as.map key).Nodup)
    (hother : ∀ a ∈ as, key a ≠ name → f a = 0) (hnamed : ∀ a ∈ as, f a ≤ v) : (as.map f).sum ≤ v := by
  induction as with
  | nil => exact hv
  | cons a as ih =>
    obtain ⟨hout, hrest⟩ := nodup_cons.mp hnodup
    obtain ⟨ha, has⟩ := forall_mem_cons.mp hother
    obtain ⟨hle, hles⟩ := forall_mem_cons.mp hnamed
    rw [map_cons, sum_cons]
    by_cases hname : key a = name
    · have hzero : (as.map f).sum = 0 := by
        apply sum_eq_zero
        intro g hg
        obtain ⟨b, hb, rfl⟩ := mem_map.mp hg
        apply has b hb
        intro hsame
        exact hout (mem_map.mpr ⟨b, hb, hsame.trans hname.symm⟩)
      rw [hzero, add_zero]
      exact hle
    · rw [ha hname, zero_add]
      exact ih hrest has hles

theorem stepGrant_gained (hunique : (emails db'.records).Nodup) (h : Gained u client db db') :
    stepGrant u db db' ≤ allowance client.totalGB := by
  have hnodup : ((db'.records.rows.filter (·.ownerId == u)).map (·.email)).Nodup :=
    hunique.sublist (filter_sublist.map _)
  have hcases : ∀ r' ∈ db'.records.rows.filter (·.ownerId == u), grantedTo u db r' = 0 ∨
      r'.email = client.email ∧ grantedTo u db r' ≤ allowance client.totalGB := by
    intro r' hr'
    obtain ⟨hmem, howner⟩ := mem_filter.mp hr'
    rcases h r' hmem (by simpa using howner) with ⟨r, hr, hkey, howner', hsized⟩ | ⟨hname, hsized⟩
    · exact .inl (grantedTo_kept hr hkey howner' hsized)
    · have hle := @grantedTo_le u db r'
      rw [hsized.total] at hle
      exact .inr ⟨hname, hle⟩
  apply sum_le_single (allowance_nonneg _) hnodup
  · intro r' hr' hne
    exact (hcases r' hr').resolve_right fun hnew => hne hnew.1
  · intro r' hr'
    rcases hcases r' hr' with hzero | ⟨-, hle⟩
    · rw [hzero]
      exact allowance_nonneg _
    · exact hle

theorem Unraised.not_prolonged (h : Unraised u db db') : ¬ Prolonged u db db' := by
  rintro ⟨r, hr, r', hr', hkey, -, howner', hlonger⟩
  obtain ⟨r₁, hr₁, hkey₁, -, hsized⟩ := h r' hr' howner'
  obtain rfl := Table.eq_of_key hr₁ hr (hkey₁.trans hkey.symm)
  rw [hsized.expiry] at hlonger
  exact lt_irrefl _ hlonger

end granting

section requests

variable {env : Env} {user : Staff} {w : WalletDraws} {x : Draw} {p : Panel} {cost totalBytes : Int}
  {act : DB → DB × Except String Unit}

def resetGrant (p : Panel) (email : String) : WithTop Int :=
  ((p.db.traffic email).map fun t => allowance t.total).getD 0

def regranted (p : Panel) : Request → Except String Unit → WithTop Int
  | .resetTraffic email, .ok _ => resetGrant p email
  | _, _ => 0

def requestGrant (env : Env) (user : Staff) (x : Draw) (p : Panel) (r : Request) : WithTop Int :=
  stepGrant user.id p.db (handle env user x p r).1.db + regranted p r (handle env user x p r).2

def requestCharge (env : Env) (user : Staff) (x : Draw) (p : Panel) (r : Request) : WithTop Int :=
  chargedFor ((handle env user x p r).1.charges.drop p.charges.length)

def Priced (user : Staff) (x : Draw) (p : Panel) : Request → Prop
  | .create payload =>
    createStopped user x p (createPayload user x.client payload) = true ∨
      (0 < createCost user p payload.client.totalGB ∧ Fresh p.db payload.client.email)
  | .update email updated _ =>
    requireOwnership user p email = false ∨ ∀ rec, p.db.record email = some rec →
      SizedBy updated rec ∧ NameKept p.db rec updated.email
  | .rotate email opts =>
    requireOwnership user p email = false ∨ ∀ rec, p.db.record email = some rec →
      NameKept p.db rec (rotated x.client rec opts).email
  | .attach _ _ => True
  | .resetTraffic email =>
    requireOwnership user p email = false ∨ p.db.traffic email = none ∨
      0 < resetCostOf user p (quotaInForce p.db email)
  | .delete _ _ => True

theorem prepaid_cases :
    (∃ e, prepaid user w p cost totalBytes act = (p, .error e)) ∨
      (∃ db e p', act p.db = (db, .error e) ∧ prepaid user w p cost totalBytes act = (p', .error e) ∧
        p'.db = db) ∨
      ∃ db u p', act p.db = (db, .ok u) ∧ prepaid user w p cost totalBytes act = (p', .ok u) ∧ p'.db = db ∧
        (0 < cost → p'.charges = p.charges ++ [⟨user.id, cost, totalBytes⟩]) := by
  rw [prepaid]
  cases hcharge : charge user w p cost totalBytes with
  | error err => exact .inl ⟨err, rfl⟩
  | ok p' =>
    right
    obtain ⟨hdb, -⟩ := charge_keeps hcharge
    dsimp only
    rw [hdb]
    cases hact : act p.db with
    | mk db result =>
      cases result with
      | error err =>
        exact .inl ⟨db, err, _, rfl, rfl, (@refundCharge_keeps user w { p' with db } cost totalBytes).1⟩
      | ok u =>
        refine .inr ⟨db, u, _, rfl, rfl, rfl, ?_⟩
        intro hcost
        rw [charge, if_neg (by omega)] at hcharge
        split at hcharge
        · cases hcharge
        · cases hcharge
          rfl

theorem chargedFor_appended {p' : Panel} (hcost : 0 < cost)
    (hcharges : p'.charges = p.charges ++ [⟨user.id, cost, totalBytes⟩]) :
    chargedFor (p'.charges.drop p.charges.length) = allowance totalBytes := by
  rw [hcharges, drop_left, chargedFor, if_pos (by simpa using hcost)]
  rfl

structure Settled (u : Int) (p : Panel) (r : Panel × Except String Unit) (grant : WithTop Int) : Prop where
  holding : Holding u r.1.db
  unprolonged : ¬ Prolonged u p.db r.1.db
  paid : grant ≤ chargedFor (r.1.charges.drop p.charges.length)

variable {r : Panel × Except String Unit}

theorem settled_unraised {u : Int} (h : Holding u r.1.db)
    (hunraised : Unraised u p.db r.1.db) : Settled u p r (stepGrant u p.db r.1.db) := by
  refine ⟨h, hunraised.not_prolonged, ?_⟩
  rw [stepGrant_unraised hunraised]
  exact chargedFor_nonneg _

theorem settled_same {u : Int} {result : Except String Unit} (h : Holding u p.db) :
    Settled u p (p, result) (stepGrant u p.db p.db) :=
  settled_unraised h (Kept.refl u p.db).unraised

theorem owner_of_required {email : String} (hadmin : user.isAdmin = false) (hmanager : user.isManager = false)
    (h : requireOwnership user p email = true) :
    ∀ rec, p.db.record email = some rec → rec.ownerId = user.id := by
  intro rec hrec
  simpa [requireOwnership, hadmin, hmanager, hrec] using h

theorem settled_db {u : Int} (h : Holding u p.db) (hsame : r.1.db = p.db) :
    Settled u p r (stepGrant u p.db r.1.db) := by
  apply settled_unraised
  · rw [hsame]
    exact h
  · rw [hsame]
    exact (Kept.refl u p.db).unraised

theorem createPayload_facts (hadmin : user.isAdmin = false) (d : Draws) (payload : ClientCreatePayload) :
    (createPayload user d payload).client.email = payload.client.email ∧
      (createPayload user d payload).client.totalGB = payload.client.totalGB := by
  rw [createPayload, hadmin]
  exact ⟨rfl, rfl⟩

variable {payload : ClientCreatePayload}

theorem created_unprolonged {d : Draws} {u : Int}
    (hfresh : Fresh p.db payload.client.email)
    (hgained : Gained u payload.client p.db (create env d p.db payload).1) :
    ¬ Prolonged u p.db (create env d p.db payload).1 := by
  rintro ⟨r, hr, r', hr', hkey, -, howner', hlonger⟩
  rcases hgained r' hr' howner' with ⟨r₁, hr₁, hkey₁, -, hsized⟩ | ⟨hname, -⟩
  · obtain rfl := Table.eq_of_key hr₁ hr (hkey₁.trans hkey.symm)
    rw [hsized.expiry] at hlonger
    exact lt_irrefl _ hlonger
  · exact create_new_key hfresh hr hr' hname hkey

theorem createClient_settled (hadmin : user.isAdmin = false)
    (hu : user.id ≠ 0) (h : Holding user.id p.db) (hpriced : Priced user x p (.create payload)) :
    Settled user.id p (createClient env user x p payload)
      (stepGrant user.id p.db (createClient env user x p payload).1.db) := by
  rcases hpriced with hstopped | ⟨hcost, hfresh⟩
  · apply settled_db h
    rcases (createClient_effect env user x p payload).2 with hsame | ⟨hopen, -⟩
    · exact hsame
    · rw [hopen] at hstopped
      cases hstopped
  · obtain ⟨hemail, htotal⟩ := createPayload_facts hadmin x.client payload
    rw [createClient]
    split
    · exact settled_same h
    · dsimp only
      generalize createPayload user x.client payload = payload' at hemail htotal ⊢
      rw [← hemail] at hfresh
      rw [← htotal] at hcost
      obtain ⟨hholding, hgained, hfailed⟩ := @Holding.create env x.client user.id p.db payload' hu h hfresh
      rcases @prepaid_cases user x.wallet p (createCost user p payload'.client.totalGB) payload'.client.totalGB
          fun db => create env x.client db payload' with
        ⟨e, hresult⟩ | ⟨db, e, p', hact, hresult, hdb⟩ | ⟨db, _, p', hact, hresult, hdb, hcharges⟩
      · rw [hresult]
        exact settled_same h
      · rw [hact] at hholding hfailed
        rw [hresult]
        apply settled_unraised <;> rw [hdb]
        · exact hholding
        · exact hfailed rfl
      · have hnot := created_unprolonged hfresh hgained
        rw [hact] at hholding hgained hnot
        rw [hresult]
        constructor
        case holding => rw [hdb]; exact hholding
        case unprolonged => rw [hdb]; exact hnot
        case paid =>
          rw [hdb, chargedFor_appended hcost (hcharges hcost)]
          exact stepGrant_gained hholding.unique hgained

theorem resetClient_settled {email : String} (hadmin : user.isAdmin = false) (hmanager : user.isManager = false)
    (hu : user.id ≠ 0) (h : Holding user.id p.db) (hpriced : Priced user x p (.resetTraffic email)) :
    Settled user.id p (resetClient env user x p email)
      (stepGrant user.id p.db (resetClient env user x p email).1.db +
        regranted p (.resetTraffic email) (resetClient env user x p email).2) := by
  rw [resetClient, owned]
  split
  case isFalse =>
    simp only [regranted, add_zero]
    exact settled_same h
  case isTrue howned =>
    have howner := owner_of_required hadmin hmanager howned
    obtain ⟨hholding, hunraised⟩ : Holding user.id (resetTrafficByEmail env x.client x.reset p.db email).1 ∧
        Unraised user.id p.db (resetTrafficByEmail env x.client x.reset p.db email).1 :=
      h.resetTrafficByEmail hu howner
    rw [hadmin, if_neg Bool.false_ne_true]
    rcases @prepaid_cases user x.wallet p (resetCostOf user p (quotaInForce p.db email)) (quotaInForce p.db email)
        fun db => resetTrafficByEmail env x.client x.reset db email with
      ⟨e, hresult⟩ | ⟨db, e, p', hact, hresult, hdb⟩ | ⟨db, _, p', hact, hresult, hdb, hcharges⟩
    · rw [hresult]
      simp only [regranted, add_zero]
      exact settled_same h
    · rw [hact] at hholding hunraised
      rw [hresult]
      simp only [regranted, add_zero]
      apply settled_unraised <;> rw [hdb]
      · exact hholding
      · exact hunraised
    · rw [hact] at hholding hunraised
      rw [hresult]
      simp only [regranted]
      rw [hdb, stepGrant_unraised hunraised, zero_add]
      constructor
      case holding => rw [hdb]; exact hholding
      case unprolonged => rw [hdb]; exact hunraised.not_prolonged
      case paid =>
        rcases hpriced with hforeign | hmissing | hcost
        · rw [howned] at hforeign
          cases hforeign
        · rw [resetGrant, hmissing]
          exact chargedFor_nonneg _
        · rw [chargedFor_appended hcost (hcharges hcost), resetGrant, quotaInForce, DB.traffic]
          cases p.db.traffics.find? (·.email = email) with
          | none => exact allowance_nonneg _
          | some t => exact le_refl _

theorem handle_settled {r : Request} (hadmin : user.isAdmin = false) (hmanager : user.isManager = false)
    (hu : user.id ≠ 0) (h : Holding user.id p.db) (hpriced : Priced user x p r) :
    Settled user.id p (handle env user x p r) (requestGrant env user x p r) := by
  cases r with
  | create payload =>
    have hgrant : requestGrant env user x p (.create payload) =
        stepGrant user.id p.db (createClient env user x p payload).1.db := add_zero _
    rw [hgrant]
    exact createClient_settled hadmin hu h hpriced
  | update email updated inboundIds =>
    have hgrant : requestGrant env user x p (.update email updated inboundIds) =
        stepGrant user.id p.db (updateClient env user x p email updated inboundIds).1.db := add_zero _
    rw [hgrant, handle, updateClient, owned]
    split
    case isFalse => exact settled_same h
    case isTrue howned =>
      have howner := owner_of_required hadmin hmanager howned
      have hnamed : ∀ rec, p.db.record email = some rec →
          SizedBy updated rec ∧ NameKept p.db rec updated.email := by
        rcases hpriced with hforeign | hkept
        · rw [howned] at hforeign
          cases hforeign
        · exact hkept
      rw [hadmin]
      have hupdate : ∀ updated' : Client, Alike updated updated' →
          Holding user.id (updateByEmail env x.client p.db email updated' inboundIds).1 ∧
            Unraised user.id p.db (updateByEmail env x.client p.db email updated' inboundIds).1 := by
        intro updated' halike
        apply h.updateByEmail hu
        intro rec hrec
        obtain ⟨hsized, hname⟩ := hnamed rec hrec
        rw [halike.email]
        exact ⟨howner rec hrec,
          ⟨hsized.total.trans halike.total.symm, hsized.expiry.trans halike.expiry.symm⟩, hname⟩
      exact settled_unraised (hupdate _ (by cases p.db.record email <;> exact ⟨rfl, rfl, rfl⟩)).1
        (hupdate _ (by cases p.db.record email <;> exact ⟨rfl, rfl, rfl⟩)).2
  | rotate email opts =>
    have hgrant : requestGrant env user x p (.rotate email opts) =
        stepGrant user.id p.db (rotateClient env user x p email opts).1.db := add_zero _
    rw [hgrant, handle, rotateClient, owned]
    split
    case isFalse => exact settled_same h
    case isTrue howned =>
      have howner := owner_of_required hadmin hmanager howned
      obtain ⟨hholding, hunraised⟩ : Holding user.id (rotate env x.client p.db email opts).1 ∧
          Unraised user.id p.db (rotate env x.client p.db email opts).1 := by
        apply h.rotate hu
        intro rec hrec
        rcases hpriced with hforeign | hkept
        · rw [howned] at hforeign
          cases hforeign
        · exact ⟨howner rec hrec, hkept rec hrec⟩
      exact settled_unraised hholding hunraised
  | attach email inboundIds =>
    have hgrant : requestGrant env user x p (.attach email inboundIds) =
        stepGrant user.id p.db (attachClient env user x p email inboundIds).1.db := add_zero _
    rw [hgrant, handle, attachClient, owned]
    split
    case isFalse => exact settled_same h
    case isTrue howned =>
      obtain ⟨hholding, hkept⟩ : Holding user.id (attachByEmail env x.client p.db email inboundIds).1 ∧
          Kept user.id p.db (attachByEmail env x.client p.db email inboundIds).1 :=
        h.attachByEmail hu (owner_of_required hadmin hmanager howned)
      exact settled_unraised hholding hkept.unraised
  | resetTraffic email => exact resetClient_settled hadmin hmanager hu h hpriced
  | delete email keepTraffic =>
    have hgrant : requestGrant env user x p (.delete email keepTraffic) =
        stepGrant user.id p.db (deleteClient user x p email keepTraffic).1.db := add_zero _
    rw [hgrant, handle, deleteClient, owned]
    split
    case isFalse => exact settled_same h
    case isTrue =>
      obtain ⟨hholding, hkept⟩ : Holding user.id (deleteByEmail x.client p.db email keepTraffic).1 ∧
          Kept user.id p.db (deleteByEmail x.client p.db email keepTraffic).1 := h.deleteByEmail hu
      exact settled_unraised hholding hkept.unraised

end requests

section runs

variable {env : Env} {user : Account} {p : Panel} {acts : List (Request × Draw)}

def after (env : Env) (user : Staff) (p : Panel) (a : Request × Draw) : Panel := (handle env user a.2 p a.1).1

def grantedIn (env : Env) (user : Staff) : Panel → List (Request × Draw) → WithTop Int :=
  Trace.total (after env user) fun p a => requestGrant env user a.2 p a.1

def chargedIn (env : Env) (user : Staff) : Panel → List (Request × Draw) → WithTop Int :=
  Trace.total (after env user) fun p a => requestCharge env user a.2 p a.1

def PricedThroughout (env : Env) (user : Staff) : Panel → List (Request × Draw) → Prop :=
  Trace.Throughout (after env user) fun p a => Priced user a.2 p a.1

def NeverProlonged (env : Env) (user : Staff) : Panel → List (Request × Draw) → Prop :=
  Trace.Throughout (after env user) fun p a => ¬ Prolonged user.id p.db (after env user p a).db

theorem run_settled (hadmin : user.isAdmin = false) (hmanager : user.isManager = false)
    (hstart : Holding user.id p.db) (h : PricedThroughout env user.toStaff p acts) :
    Trace.Throughout (after env user.toStaff) (fun p a => Settled user.id p
      (handle env user.toStaff a.2 p a.1) (requestGrant env user.toStaff a.2 p a.1)) p acts := by
  have hu : user.id ≠ 0 := by
    have hpos := user.registered
    omega
  have hstep : ∀ (p : Panel) (a : Request × Draw), Holding user.id p.db → Priced user.toStaff a.2 p a.1 →
      Settled user.id p (handle env user.toStaff a.2 p a.1) (requestGrant env user.toStaff a.2 p a.1) :=
    fun p a hholding hpriced => handle_settled hadmin hmanager hu hholding hpriced
  have hkeep : Trace.Throughout (after env user.toStaff)
      (fun p a => Holding user.id p.db ∧ Priced user.toStaff a.2 p a.1) p acts :=
    Trace.Throughout.keep (I := fun p => Holding user.id p.db) h hstart fun p a hholding hpriced =>
      (hstep p a hholding hpriced).holding
  exact hkeep.imp fun p a hboth => hstep p a hboth.1 hboth.2

theorem quota_prepaid (env : Env) (user : Account) (hadmin : user.isAdmin = false)
    (hmanager : user.isManager = false) (p : Panel) (hstart : Holding user.id p.db)
    (acts : List (Request × Draw)) (h : PricedThroughout env user.toStaff p acts) (n : Nat) :
    grantedIn env user.toStaff p (acts.take n) ≤ chargedIn env user.toStaff p (acts.take n) ∧
      NeverProlonged env user.toStaff p (acts.take n) := by
  have hsettled := run_settled hadmin hmanager hstart (Trace.Throughout.take h n)
  exact ⟨Trace.total_le (hsettled.imp fun _ _ hstep => hstep.paid),
    hsettled.imp fun _ _ hstep => hstep.unprolonged⟩

end runs

def gigabyte : Int := 1073741824

def limited (totalGB expiryTime : Int) : Client := { freshClient "cfg" totalGB with expiryTime }

def createLimited (totalGB expiryTime : Int) : Request × Draw :=
  (.create ⟨limited totalGB expiryTime, [1], 0, 0⟩, smooth)

def raiseLimits (totalGB expiryTime : Int) : Request × Draw :=
  (.update "cfg" (limited totalGB expiryTime) [], smooth)

theorem twoInbounds_uncarried (e : String) : ¬ carried twoInbounds e := by
  rintro ⟨i, c, hc, -⟩
  have hnone : allClients twoInbounds = [] := by rfl
  have hin := mem_allClients.mpr ⟨i, hc⟩
  rw [hnone] at hin
  cases hin

theorem twoInbounds_holding (u : Int) : Holding u twoInbounds where
  unique := nodup_nil
  trimmed := fun _ hr => absurd hr not_mem_nil
  faithful := fun _ _ _ _ hr => absurd hr not_mem_nil

theorem quota_prepaid_create_and_reset :
    grantedIn plainEnv customer.toStaff (deskOver twoInbounds)
        ([createLimited gigabyte 1000, (.resetTraffic "cfg", smooth)].take 2) ≤
      chargedIn plainEnv customer.toStaff (deskOver twoInbounds)
        ([createLimited gigabyte 1000, (.resetTraffic "cfg", smooth)].take 2) ∧
    NeverProlonged plainEnv customer.toStaff (deskOver twoInbounds)
      ([createLimited gigabyte 1000, (.resetTraffic "cfg", smooth)].take 2) := by
  have hfresh : Fresh twoInbounds "cfg" := ⟨by decide, not_mem_nil, twoInbounds_uncarried "cfg"⟩
  apply quota_prepaid plainEnv customer (by decide) (by decide) _ (twoInbounds_holding _)
  exact ⟨.inr ⟨by decide +kernel, hfresh⟩, .inr (.inr (by decide +kernel)), trivial⟩

theorem quota_unpaid :
    Holding customer.id (deskOver twoInbounds).db ∧
      ¬ grantedIn plainEnv customer.toStaff (deskOver twoInbounds)
          [createLimited gigabyte 1000, raiseLimits (5 * gigabyte) 2000] ≤
        chargedIn plainEnv customer.toStaff (deskOver twoInbounds)
          [createLimited gigabyte 1000, raiseLimits (5 * gigabyte) 2000] ∧
      ¬ NeverProlonged plainEnv customer.toStaff (deskOver twoInbounds)
          [createLimited gigabyte 1000, raiseLimits (5 * gigabyte) 2000] ∧
      ¬ grantedIn plainEnv customer.toStaff (deskOver twoInbounds) [createLimited 0 0] ≤
        chargedIn plainEnv customer.toStaff (deskOver twoInbounds) [createLimited 0 0] := by
  refine ⟨twoInbounds_holding _, ?_, ?_, ?_⟩
  · have hgranted : grantedIn plainEnv customer.toStaff (deskOver twoInbounds)
        [createLimited gigabyte 1000, raiseLimits (5 * gigabyte) 2000] =
          ((5 * gigabyte : Int) : WithTop Int) := by decide +kernel
    have hcharged : chargedIn plainEnv customer.toStaff (deskOver twoInbounds)
        [createLimited gigabyte 1000, raiseLimits (5 * gigabyte) 2000] = (gigabyte : WithTop Int) := by
      decide +kernel
    rw [hgranted, hcharged]
    decide +kernel
  · rintro ⟨-, hraised, -⟩
    have hlonger : ((after plainEnv customer.toStaff (deskOver twoInbounds)
        (createLimited gigabyte 1000)).db.records.rows.any fun r =>
          (after plainEnv customer.toStaff (after plainEnv customer.toStaff (deskOver twoInbounds)
            (createLimited gigabyte 1000)) (raiseLimits (5 * gigabyte) 2000)).db.records.rows.any fun r' =>
              decide (r.recordId = r'.recordId ∧ r.ownerId = customer.id ∧ r'.ownerId = customer.id ∧
                lifetime r.expiryTime < lifetime r'.expiryTime)) = true := by decide +kernel
    obtain ⟨r, hr, hany⟩ := any_eq_true.mp hlonger
    obtain ⟨r', hr', hboth⟩ := any_eq_true.mp hany
    exact hraised ⟨r, hr, r', hr', of_decide_eq_true hboth⟩
  · have hgranted : grantedIn plainEnv customer.toStaff (deskOver twoInbounds) [createLimited 0 0] = ⊤ := by
      decide +kernel
    have hcharged : chargedIn plainEnv customer.toStaff (deskOver twoInbounds) [createLimited 0 0] = 0 := by
      decide +kernel
    rw [hgranted, hcharged]
    exact not_le.mpr (WithTop.coe_lt_top 0)

end Clients

end QuiPanel
