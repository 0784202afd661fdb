import QuiPanel.Lifecycle

namespace QuiPanel

namespace Clients

open Keyed Outcome

structure Frame (touched : String → Prop) (R : DB → DB → Prop) : Prop where
  refl : ∀ db, R db db
  trans : ∀ {db db' db''}, R db db' → R db' db'' → R db db''
  sync : ∀ {db db' i cs}, syncInbound db i cs = .ok db' → R db db'
  save : ∀ db i cs, R db (saveClients db i cs)
  links : ∀ (db : DB) links, R db { db with links }
  stat : ∀ (db : DB) i c, R db { db with traffics := addClientStat i db.traffics c }
  moved : ∀ {db : DB} {email c ts}, touched email → touched c.email →
    updateClientStat db.traffics email c = .ok ts → R db { db with traffics := ts }
  reset : ∀ {db : DB} {email}, touched email → R db { db with traffics := resetStat db.traffics email }
  dropped : ∀ {db : DB} {email}, touched email → R db { db with traffics := delClientStat db.traffics email }
  reverse : ∀ db i reverse now, R db (setReverse db i reverse now)

def sameName (email : String) (e : String) : Prop := Text.equalFold e email = true

section frames

variable {env : Env} {d : Draws} {o : Attempt} {touched : String → Prop} {R : DB → DB → Prop}
  {db db' : DB} {client client' : Client} {i : Int} {is : List Int} {k : Nat} {email : String}

theorem equalFold_self (s : String) : Text.equalFold s s = true := beq_self_eq_true _

theorem record_email {rec : ClientRecord} (h : db.record email = some rec) : rec.email = email := by
  simpa using List.find?_some h

theorem record_unique {rec existing : ClientRecord} (h : db.record email = some rec)
    (hfind : db.records.find rec.recordId = some existing) : existing.email = email := by
  have hmem := List.mem_of_find?_eq_some h
  rw [Table.find_of_mem hmem] at hfind
  cases hfind
  exact record_email h

theorem prepareUpdate_email {existing : ClientRecord} (h : prepareUpdate d db existing client = .ok client') :
    client'.email = client.email := by
  simp only [prepareUpdate, bind_ok, check_ok] at h
  obtain ⟨_, -, _, -, _, -, _, -, h⟩ := h
  cases h
  rfl

theorem prepare_email {payload : ClientCreatePayload} (h : prepare d db payload = .ok client) :
    client.email = payload.client.email := by
  simp only [prepare, bind_ok, check_ok] at h
  obtain ⟨_, -, _, -, _, -, _, -, _, -, _, -, h⟩ := h
  cases h
  rfl

theorem Frame.addInboundClient (hR : Frame touched R) (h : addInboundClient o db i [client] = .ok db') :
    R db db' := by
  simp only [Clients.addInboundClient, bind_ok, orErr_ok, check_ok, List.map_singleton] at h
  obtain ⟨_, -, ib, -, _, -, stored, -, push, -, _, -, hsync⟩ := h
  refine hR.trans ?_ (hR.trans (hR.save _ i _) (hR.sync hsync))
  split
  · exact hR.stat db i client
  · exact hR.refl db

theorem Frame.addTo (hR : Frame touched R) (h : addTo env o db client i = .ok (db', client')) :
    R db db' := by
  simp only [Clients.addTo, bind_ok, orErr_ok, check_ok] at h
  obtain ⟨_, -, ib, -, mid, hadd, h⟩ := h
  cases h
  exact hR.addInboundClient hadd

theorem Frame.addToInbounds (hR : Frame touched R) : R db (addToInbounds env d k db client is).1 := by
  induction is generalizing k db client with
  | nil => exact hR.refl db
  | cons i is ih =>
    rw [Clients.addToInbounds]
    split
    · exact hR.refl db
    case h_2 db' client' hadd => exact hR.trans (hR.addTo hadd) ih

theorem Frame.attachToInbounds {attached : List Int} (hR : Frame touched R) :
    R db (attachToInbounds env d attached client k db is).1 := by
  induction is generalizing k db with
  | nil => exact hR.refl db
  | cons i is ih =>
    rw [Clients.attachToInbounds]
    split
    · exact ih
    · split
      · exact hR.refl db
      case h_2 db' client' hadd => exact hR.trans (hR.addTo hadd) ih

theorem Frame.attachByEmail (hR : Frame touched R) : R db (attachByEmail env d db email is).1 := by
  rw [Clients.attachByEmail]
  split
  · exact hR.refl db
  · exact hR.attachToInbounds

theorem Frame.updateInboundClient (hR : Frame touched R) (hnames : ∀ e, sameName client.email e → touched e)
    (h : updateInboundClient o db i client client.email = .ok db') : R db db' := by
  simp only [Clients.updateInboundClient, bind_ok, orErr_ok, check_ok] at h
  obtain ⟨_, -, ib, -, oldClient, hlocated, _, -, _, -, traffics, hmove, push, -, _, -, hsync⟩ := h
  have hfold : Text.equalFold oldClient.email client.email = true := by
    split at hlocated
    · cases hlocated
    · obtain ⟨hlt, hat⟩ := List.getElem?_eq_some_iff.mp hlocated
      have hfound := List.findIdx_getElem (w := hlt)
      rw [hat] at hfound
      exact hfound
  rw [moveStat, if_pos (.inl hfold)] at hmove
  have hmoved := hR.moved (hnames _ hfold) (hnames _ (equalFold_self _)) hmove
  exact hR.trans hmoved (hR.trans (hR.save _ i _) (hR.sync hsync))

theorem Frame.updateInInbounds {clientId : Int} (hR : Frame touched R)
    (hnames : ∀ e, sameName email e → touched e) (hemail : client.email = email) :
    R db (updateInInbounds env d email clientId k db client is).1 := by
  induction is generalizing k db client with
  | nil => exact hR.refl db
  | cons i is ih =>
    rw [Clients.updateInInbounds]
    split
    · exact hR.trans (hR.links db _) (ih hemail)
    case h_2 ib hib =>
      have hfilled := (fillProtocolDefaults_keeps env (d.attempts k) client ib).1.trans hemail
      have hflow := (clientWithInboundFlow_keeps (fillProtocolDefaults env (d.attempts k) client ib) ib).1
      split
      · exact ih hemail
      · dsimp only
        split
        · exact hR.refl db
        case h_2 db' hupdate =>
          have hkept := hflow.trans hfilled
          rw [← hkept] at hupdate hnames
          have hstep := hR.updateInboundClient hnames hupdate
          exact hR.trans hstep (ih hfilled)

theorem Frame.update {inboundFilter : List Int} (hR : Frame touched R)
    (hnames : ∀ e, sameName client.email e → touched e)
    (hemail : ∀ existing, db.records.find i = some existing → existing.email = client.email) :
    R db (update env d db i client inboundFilter).1 := by
  rw [Clients.update]
  split
  · exact hR.refl db
  case h_2 existing hfind =>
    have hsame := hemail existing hfind
    dsimp only
    split
    · exact hR.refl db
    case h_2 client' hprepare =>
      have hkept := prepareUpdate_email hprepare
      rw [if_pos (hkept.trans hsame.symm)]
      split
      · exact hR.refl db
      · have hloop := @Frame.updateInInbounds env d touched R db client'
          (if inboundFilter = [] then db.inboundIdsOf i else (db.inboundIdsOf i).filter inboundFilter.contains)
          0 client.email i hR hnames hkept
        rw [hsame]
        generalize Clients.updateInInbounds env d client.email i 0 db client'
          (if inboundFilter = [] then db.inboundIdsOf i
            else (db.inboundIdsOf i).filter inboundFilter.contains) = looped at hloop ⊢
        obtain ⟨db', result⟩ := looped
        cases result with
        | error err => exact hloop
        | ok last =>
          simp only [andThen]
          split
          · exact hloop
          · exact hR.trans hloop (hR.reverse _ _ _ _)

theorem Frame.updateByEmail {inboundFilter : List Int} (hR : Frame touched R)
    (hnames : ∀ e, sameName email e → touched e) (hemail : client.email = email) :
    R db (updateByEmail env d db email client inboundFilter).1 := by
  rw [Clients.updateByEmail]
  split
  · exact hR.refl db
  case h_2 rec hrec =>
    split at hrec
    · cases hrec
    · exact hR.update (hemail ▸ hnames) fun existing hfind => (record_unique hrec hfind).trans hemail.symm

theorem Frame.resetInInbounds (hR : Frame touched R) (hemail : touched email) :
    R db (resetInInbounds d email k db is).1 := by
  induction is generalizing k db with
  | nil => exact hR.refl db
  | cons i is ih =>
    rw [Clients.resetInInbounds]
    split
    · exact hR.refl db
    case h_2 db' hreset =>
      simp only [resetClientTraffic, bind_ok, orErr_ok, check_ok] at hreset
      obtain ⟨t, -, _, -, _, -, _, -, h⟩ := hreset
      cases h
      exact hR.trans (hR.reset hemail) ih

theorem Frame.resetTrafficByEmail {reset : Draws} (hR : Frame touched R)
    (hnames : ∀ e, sameName email e → touched e) : R db (resetTrafficByEmail env d reset db email).1 := by
  have hemail := hnames email (equalFold_self email)
  rw [Clients.resetTrafficByEmail]
  split
  · exact hR.refl db
  case h_2 rec hrec =>
    split at hrec
    · cases hrec
    · have henabled : R db (enableForReset env d db rec) := by
        rw [enableForReset]
        split
        · exact hR.refl db
        · rw [← record_email hrec] at hnames
          exact hR.update hnames fun existing hfind =>
            (record_unique hrec hfind).trans (record_email hrec).symm
      dsimp only
      split
      · split
        · exact henabled
        · exact hR.trans henabled (hR.reset hemail)
      · exact hR.trans henabled (hR.resetInInbounds hemail)

theorem Frame.delInboundClientByEmail {keepTraffic : Bool} (hR : Frame touched R) (hemail : touched email) :
    R db (delInboundClientByEmail o db i email keepTraffic).1 := by
  rw [Clients.delInboundClientByEmail]
  split
  · exact hR.refl db
  · exact hR.refl db
  case h_3 clients hclients =>
    split
    · exact hR.refl db
    · dsimp only
      have hdropped : R db
          (if email ≠ "" ∧ (!emailUsedByOtherInbounds db email i) = true ∧ (!keepTraffic) = true then
            { db with traffics := delClientStat db.traffics email } else db) := by
        split
        · exact hR.dropped hemail
        · exact hR.refl db
      generalize (if email ≠ "" ∧ (!emailUsedByOtherInbounds db email i) = true ∧
        (!keepTraffic) = true then { db with traffics := delClientStat db.traffics email } else db) =
          dropped at hdropped ⊢
      split
      · exact hdropped
      · exact hdropped
      · split
        · exact hR.trans hdropped (hR.save _ i _)
        case h_2 db' hsync => exact hR.trans hdropped (hR.trans (hR.save _ i _) (hR.sync hsync))

theorem Frame.delFromInbounds (hR : Frame touched R) (hemail : touched email) :
    R db (delFromInbounds d email k db is).1 := by
  induction is generalizing k db with
  | nil => exact hR.refl db
  | cons i is ih =>
    rw [Clients.delFromInbounds]
    split
    · exact ih
    · have hstep := @Frame.delInboundClientByEmail (d.attempts k) touched R db i email false hR hemail
      generalize Clients.delInboundClientByEmail (d.attempts k) db i email false = deleted at hstep ⊢
      obtain ⟨db', result⟩ := deleted
      cases result with
      | error err => exact hstep
      | ok found => exact hR.trans hstep ih

end frames

end Clients

end QuiPanel
