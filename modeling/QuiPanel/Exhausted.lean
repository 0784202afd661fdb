import QuiPanel.Library.Trace
import QuiPanel.Frames
import QuiPanel.Storefront
import QuiPanel.Sync
import QuiPanel.AllowList

namespace QuiPanel

namespace Clients

open Keyed Outcome

def workspaceClients (db : DB) (tenantId : Int) : List String :=
  (db.records.rows.filter (·.tenantId == tenantId)).map (·.email)

def DB.traffic (db : DB) (email : String) : Option ClientTraffic := db.traffics.find? (·.email = email)

section steady

variable {env : Env} {d : Draws} {o : Attempt} {W : Int} {touched : String → Prop} {db db' db'' : DB}
  {client client' : Client} {cs : List Client} {t t' : Records} {i : Int} {is : List Int} {k : Nat}
  {email e : String}

def Housed (W : Int) (t t' : Records) : Prop :=
  ∀ r' ∈ t'.rows, r'.tenantId = W → ∃ r ∈ t.rows, r.email = r'.email ∧ r.tenantId = W

theorem Housed.refl (W : Int) (t : Records) : Housed W t t := fun r hr hW => ⟨r, hr, rfl, hW⟩

theorem Housed.trans {t'' : Records} (h : Housed W t t') (h' : Housed W t' t'') : Housed W t t'' := by
  intro r'' hr'' hW
  obtain ⟨r', hr', hemail', hW'⟩ := h' r'' hr'' hW
  obtain ⟨r, hr, hemail, hW''⟩ := h r' hr' hW'
  exact ⟨r, hr, hemail.trans hemail', hW''⟩

theorem Housed.modify {p : ClientRecord → Bool} {f : ClientRecord → ClientRecord}
    (hf : ∀ r, (f r).recordId = r.recordId)
    (hkeeps : ∀ r, (f r).tenantId = W → (f r).email = r.email ∧ r.tenantId = W) :
    Housed W t (t.modify p f hf) := by
  intro r' hr' hW
  rw [Table.rows_modify] at hr'
  obtain ⟨r, hr, rfl⟩ := List.mem_map.mp hr'
  split at hW
  case isTrue hp =>
    obtain ⟨hemail, htenant⟩ := hkeeps r hW
    exact ⟨r, hr, by rw [if_pos hp, hemail], htenant⟩
  case isFalse hp => exact ⟨r, hr, by rw [if_neg hp], hW⟩

structure Steady (W : Int) (touched : String → Prop) (db db' : DB) : Prop where
  housed : Housed W db.records db'.records
  traffic : ∀ e, ¬ touched e → ∀ t, db.traffic e = some t → db'.traffic e = some t

theorem Steady.refl (W : Int) (touched : String → Prop) (db : DB) : Steady W touched db db :=
  ⟨.refl W _, fun _ _ _ ht => ht⟩

theorem Steady.trans (h : Steady W touched db db') (h' : Steady W touched db' db'') :
    Steady W touched db db'' :=
  ⟨h.housed.trans h'.housed, fun e he t ht => h'.traffic e he t (h.traffic e he t ht)⟩

theorem Steady.unlink (links : List ClientInbound) : Steady W touched db { db with links } :=
  ⟨.refl W _, fun _ _ _ ht => ht⟩

theorem syncInbound_steady (hW : W ≠ 0) (h : syncInbound db i cs = .ok db') : Steady W touched db db' := by
  obtain ⟨-, htraffics, -⟩ := syncInbound_ok h
  constructor
  · intro r' hr' htenant
    rcases syncInbound_rows h hr' with ⟨r, hr, hfollows⟩ | ⟨c, -, -, hcreated⟩
    · exact ⟨r, hr, hfollows.same.email.symm, hfollows.same.tenant.symm.trans htenant⟩
    · exact absurd (hcreated.tenant.symm.trans htenant).symm hW
  · intro e _ t ht
    rw [DB.traffic, htraffics]
    exact ht

theorem traffic_addClientStat (client : Client) (inboundId : Int) {t : ClientTraffic}
    (ht : db.traffics.find? (·.email = e) = some t) :
    (addClientStat inboundId db.traffics client).find? (·.email = e) = some t := by
  rw [addClientStat]
  split
  · exact ht
  · rw [List.find?_append, ht]
    rfl

theorem traffic_updateClientStat {traffics traffics' : List ClientTraffic} {oldEmail : String}
    (h : updateClientStat traffics oldEmail client = .ok traffics') (hold : e ≠ oldEmail)
    (hnew : e ≠ client.email) : traffics'.find? (·.email = e) = traffics.find? (·.email = e) := by
  simp only [updateClientStat, bind_ok, check_ok] at h
  obtain ⟨_, -, h⟩ := h
  cases h
  induction traffics with
  | nil => rfl
  | cons t traffics ih =>
    rw [List.map_cons, List.find?_cons, List.find?_cons, ih]
    by_cases ht : t.email = oldEmail
    · have hne : ¬ oldEmail = e := fun he => hold he.symm
      have hne' : ¬ client.email = e := fun he => hnew he.symm
      simp [ht, hne, hne']
    · rw [if_neg ht]

theorem traffic_resetStat (traffics : List ClientTraffic) (hne : e ≠ email) :
    (resetStat traffics email).find? (·.email = e) = traffics.find? (·.email = e) := by
  induction traffics with
  | nil => rfl
  | cons u traffics ih =>
    rw [resetStat] at ih ⊢
    rw [List.map_cons, List.find?_cons, List.find?_cons, ih]
    by_cases hu : u.email = email
    · have hne' : ¬ email = e := fun h => hne h.symm
      simp [hu, hne']
    · rw [if_neg hu]

theorem traffic_delClientStat (traffics : List ClientTraffic) (hne : e ≠ email) :
    (delClientStat traffics email).find? (·.email = e) = traffics.find? (·.email = e) := by
  induction traffics with
  | nil => rfl
  | cons u traffics ih =>
    rw [delClientStat] at ih ⊢
    by_cases hu : u.email = email
    · have hne' : ¬ u.email = e := fun h => hne (h.symm.trans hu)
      rw [List.filter_cons_of_neg (by simp [hu]), ih, List.find?_cons_of_neg (by simpa using hne')]
    · rw [List.filter_cons_of_pos (by simpa using hu), List.find?_cons, List.find?_cons, ih]

theorem Steady.traffics {traffics : List ClientTraffic}
    (h : ∀ e, ¬ touched e → ∀ t, db.traffic e = some t → traffics.find? (·.email = e) = some t) :
    Steady W touched db { db with traffics } :=
  ⟨.refl W _, h⟩

theorem untouched_ne (hemail : touched email) (he : ¬ touched e) : e ≠ email := fun h => he (h ▸ hemail)

theorem steady_frame (hW : W ≠ 0) : Frame touched (Steady W touched) where
  refl := .refl W touched
  trans := Steady.trans
  sync := syncInbound_steady hW
  save _ _ _ := ⟨.refl W _, fun _ _ _ ht => ht⟩
  links _ := Steady.unlink
  stat _ i c := .traffics fun _ _ _ ht => traffic_addClientStat c i ht
  moved hold hnew h := .traffics fun _ he _ ht =>
    (traffic_updateClientStat h (untouched_ne hold he) (untouched_ne hnew he)).trans ht
  reset hemail := .traffics fun _ he _ ht => (traffic_resetStat _ (untouched_ne hemail he)).trans ht
  dropped hemail := .traffics fun _ he _ ht => (traffic_delClientStat _ (untouched_ne hemail he)).trans ht
  reverse _ _ _ _ := ⟨.modify (by exact fun _ => rfl) fun _ hr => ⟨rfl, hr⟩, fun _ _ _ ht => ht⟩

variable {payload : ClientCreatePayload}

theorem create_steady (hW : W ≠ 0)
    (h : payload.tenantId ≠ W ∨ (create env d db payload).2.isOk = false) :
    Steady W touched db (create env d db payload).1 := by
  rw [create] at h ⊢
  split at h
  · exact .refl W _ db
  case h_2 client hprepare =>
    have hloop := @Frame.addToInbounds env d touched _ db client payload.inboundIds 0 (steady_frame hW)
    generalize addToInbounds env d 0 db client payload.inboundIds = looped at h hloop ⊢
    obtain ⟨db', result⟩ := looped
    cases result with
    | error err => exact hloop
    | ok last =>
      dsimp only at h ⊢
      split
      · exact hloop
      case h_2 hstamp =>
        rw [hstamp] at h
        refine hloop.trans ⟨.modify (by exact fun _ => rfl) ?_, fun _ _ _ ht => ht⟩
        rintro r htenant
        rcases h with hother | hfailed
        · exact absurd htenant hother
        · cases hfailed

theorem create_isOk (hprepare : prepare d db payload = .ok client)
    (hfit : Fit client) (hemail : client.email = payload.client.email) (hids : payload.inboundIds ≠ []) :
    (create env d db payload).2.isOk = (!refusedBeforeFirst d db payload && restAdmitted d db payload) := by
  cases hlist : payload.inboundIds with
  | nil => exact absurd hlist hids
  | cons first rest =>
    have hiff : (∃ next, addTo env (d.attempts 0) db client first = .ok next) ↔
        unrivalled db client = true ∧ admits db (emails db.records) (d.attempts 0) first = true :=
      addTo_isOk hfit
    rw [create, refusedBeforeFirst, restAdmitted, hprepare, hlist, List.tail_cons, ← hemail]
    dsimp only
    rw [addToInbounds, ← Bool.not_and, Bool.not_not]
    cases hadd : addTo env (d.attempts 0) db client first with
    | error err =>
      have hrefused : (unrivalled db client && admits db (emails db.records) (d.attempts 0) first) = false := by
        apply eq_false_of_ne_true
        intro hadmitted
        obtain ⟨next, hok⟩ := hiff.mpr (by simpa using hadmitted)
        rw [hadd] at hok
        cases hok
      rw [hrefused]
      rfl
    | ok next =>
      obtain ⟨db₁, client₁⟩ := next
      obtain ⟨hrival, hadmits⟩ := hiff.mp ⟨_, hadd⟩
      have hadded := addTo_added hfit hadd
      have hgrew : Grew client₁.email client₁.subID db db₁ := by
        rw [hadded.email, hadded.subID]
        exact hadded.grew
      have hrest := addToInbounds_isOk env d 1 rest hgrew hadded.fit
        ((unrivalled_congr hadded.email hadded.subID).trans hrival)
      rw [hrival, hadmits, Bool.and_self, Bool.true_and, ← hadded.email, ← hrest]
      dsimp only
      generalize addToInbounds env d 1 db₁ client₁ rest = looped
      obtain ⟨db', result⟩ := looped
      cases result with
      | error err => rfl
      | ok last => cases d.stamp <;> rfl

theorem provision_steady {buyer : Buyer} {product : Product} {orderId : Nat} {name : String} {tenantId : Int}
    (hW : W ≠ 0) (h : tenantId ≠ W ∨
      refusedBeforeFirst d db (orderPayload env d buyer product orderId name tenantId) = true ∨
      restAdmitted d db (orderPayload env d buyer product orderId name tenantId) = false) :
    Steady W touched db (provision env d db buyer product orderId name tenantId).1 := by
  rw [provision]
  apply create_steady hW
  rcases h with hother | hstopped
  · exact .inl hother
  · right
    generalize hpayload : orderPayload env d buyer product orderId name tenantId = payload at hstopped ⊢
    cases hprepare : prepare d db payload with
    | error err =>
      rw [create, hprepare]
      rfl
    | ok client =>
      obtain ⟨hemail, -, hinbounds, -⟩ := orderPayload_facts hpayload
      obtain ⟨hfit, hname, -, hids⟩ := orderPayload_fit (hpayload ▸ hprepare)
      rw [← hemail] at hname
      rw [← hinbounds] at hids
      rw [create_isOk hprepare hfit hname hids]
      rcases hstopped with hrefused | hrest
      · rw [hrefused]
        rfl
      · rw [hrest, Bool.and_false]

end steady

section gate

variable {env : Env} {W : Int} {touched : String → Prop} {db db' : DB} {user : Account} {x : ShopDraw}
  {s : Shop}

def allowance (total : Int) : WithTop Int := if 0 < total then total else ⊤

instance decidableAllowanceLT (a b : WithTop Int) : Decidable (a < b) :=
  match a, b with
  | some a, some b => decidable_of_iff (a < b) WithTop.coe_lt_coe.symm
  | some a, none => isTrue (WithTop.coe_lt_top a)
  | none, _ => isFalse not_top_lt

def Refreshed (t t' : ClientTraffic) : Prop :=
  t'.up + t'.down < t.up + t.down ∨ (t.enable = false ∧ t'.enable = true) ∨
    allowance t.total < allowance t'.total

structure Withheld (W : Int) (db db' : DB) : Prop where
  clients : ∀ e ∈ workspaceClients db' W, e ∈ workspaceClients db W
  traffic : ∀ e ∈ workspaceClients db W, ∀ t t', db.traffic e = some t → db'.traffic e = some t' →
    ¬ Refreshed t t'

theorem mem_workspaceClients {e : String} :
    e ∈ workspaceClients db W ↔ ∃ r ∈ db.records.rows, r.email = e ∧ r.tenantId = W := by
  simp only [workspaceClients, List.mem_map, List.mem_filter, beq_iff_eq]
  constructor
  · rintro ⟨r, ⟨hr, hW⟩, hemail⟩
    exact ⟨r, hr, hemail, hW⟩
  · rintro ⟨r, hr, hemail, hW⟩
    exact ⟨r, ⟨hr, hW⟩, hemail⟩

theorem refreshed_irrefl (t : ClientTraffic) : ¬ Refreshed t t := by
  rintro (hused | ⟨hoff, hon⟩ | htotal)
  · omega
  · rw [hoff] at hon
    cases hon
  · exact lt_irrefl _ htotal

theorem Steady.withheld (h : Steady W touched db db') (hfree : ∀ e ∈ workspaceClients db W, ¬ touched e) :
    Withheld W db db' := by
  constructor
  · intro e he
    obtain ⟨r', hr', rfl, hW⟩ := mem_workspaceClients.mp he
    obtain ⟨r, hr, hemail, hW'⟩ := h.housed r' hr' hW
    exact mem_workspaceClients.mpr ⟨r, hr, hemail, hW'⟩
  · intro e he t t' ht ht'
    rw [h.traffic e (hfree e he) t ht] at ht'
    obtain rfl := Option.some.inj ht'
    exact refreshed_irrefl t

theorem Withheld.refl (W : Int) (db : DB) : Withheld W db db :=
  (Steady.refl W (fun _ => False) db).withheld fun _ _ => id

def unnamed (db : DB) (W : Int) (email : String) : Prop :=
  ∀ e ∈ workspaceClients db W, ¬ sameName email e

def resetCharge (user : Staff) (w : WalletDraws) (p : Panel) (email : String) : Except String Panel :=
  let quota := if user.isAdmin then 0 else quotaInForce p.db email
  Clients.charge user w p (resetCostOf user p quota) quota

def Stopped (env : Env) (W : Int) (user : Account) (x : ShopDraw) (s : Shop) : ShopRequest → Prop
  | .create _ => True
  | .attach _ _ => True
  | .purchase productId name view =>
    ∀ product orderId, purchasable user x.order s productId view = .ok (product, orderId) →
      product.inboundIds = [] ∨ view.tenantId ≠ W ∨
        refusedBeforeFirst x.order.client s.db
          (orderPayload env x.order.client user.buyer product orderId name view.tenantId) = true ∨
        restAdmitted x.order.client s.db
          (orderPayload env x.order.client user.buyer product orderId name view.tenantId) = false
  | .renew productId email view =>
    (renewable user x.order s productId email view).isOk = false ∨ unnamed s.db W email
  | .resetTraffic email =>
    requireOwnership user.toStaff s.toPanel email = false ∨
      (resetCharge user.toStaff x.desk.wallet s.toPanel email).isOk = false ∨ unnamed s.db W email

theorem over_pos {p : Panel} (h : overBandwidthQuota p W = true) : W ≠ 0 := by
  rintro rfl
  simp [overBandwidthQuota, globalTenantId] at h

theorem purchase_withheld {productId : Int} {name : String} {view : Scope} (hW : W ≠ 0)
    (h : Stopped env W user x s (.purchase productId name view)) :
    Withheld W s.db (purchase env user x.order s productId name view).1.db := by
  rw [purchase]
  split
  · exact .refl W _
  case h_2 product orderId hpurchasable =>
    split
    · exact .refl W _
    case isFalse hdelivered =>
      have hstopped := (h product orderId hpurchasable).resolve_left hdelivered
      have hsteady : Steady W (fun _ => False) s.db
          (provision env x.order.client s.db user.buyer product orderId name view.tenantId).1 :=
        provision_steady hW hstopped
      generalize provision env x.order.client s.db user.buyer product orderId name view.tenantId =
        provided at hsteady ⊢
      exact hsteady.withheld fun _ _ => id

variable {email : String}

theorem applyPlan_steady {product : Product} (hW : W ≠ 0) :
    Steady W (sameName email) db (applyPlan env x.order db email product).1 := by
  rw [applyPlan]
  split
  · exact .refl W _ db
  case h_2 rec hrec =>
    have hframe : Frame (sameName email) (Steady W (sameName email)) := steady_frame hW
    have hupdate := @Frame.updateByEmail env x.order.client _ _ db
      (planned env x.order.client.now rec product) email [] hframe (fun _ h => h) (record_email hrec)
    generalize updateByEmail env x.order.client db email (planned env x.order.client.now rec product) [] =
      updated at hupdate ⊢
    obtain ⟨db', result⟩ := updated
    cases result with
    | error err => exact hupdate
    | ok u => exact hupdate.trans (hframe.resetTrafficByEmail fun _ h => h)

theorem renew_withheld {productId : Int} {view : Scope} (hW : W ≠ 0)
    (h : Stopped env W user x s (.renew productId email view)) :
    Withheld W s.db (renew env user x.order s productId email view).1.db := by
  rw [renew]
  split
  · exact .refl W _
  case h_2 product hrenewable =>
    rcases h with hrefused | hunnamed
    · rw [hrenewable] at hrefused
      cases hrefused
    · have hplan := @applyPlan_steady env W s.db x email product hW
      generalize applyPlan env x.order s.db email product = plan at hplan ⊢
      obtain ⟨db', result⟩ := plan
      cases result with
      | error err => exact hplan.withheld hunnamed
      | ok u =>
        dsimp only
        split
        · exact hplan.withheld hunnamed
        · exact (hplan.trans (steady_frame hW).attachByEmail).withheld hunnamed

theorem resetClient_withheld (hW : W ≠ 0)
    (h : Stopped env W user x s (.resetTraffic email)) :
    Withheld W s.db (resetClient env user.toStaff x.desk s.toPanel email).1.db := by
  rw [resetClient, owned]
  split
  case isFalse => exact .refl W _
  case isTrue howned =>
    have hkeeps := (@prepaid_keeps user.toStaff x.desk.wallet s.toPanel
      (resetCostOf user.toStaff s.toPanel (if user.isAdmin then 0 else quotaInForce s.db email))
      (if user.isAdmin then 0 else quotaInForce s.db email)
      fun db => resetTrafficByEmail env x.desk.client x.desk.reset db email).2
    rcases hkeeps with ⟨-, hsame⟩ | ⟨hcharged, hacted⟩
    · rw [hsame]
      exact .refl W _
    · rw [hacted]
      rcases h with hforeign | huncharged | hunnamed
      · rw [howned] at hforeign
        cases hforeign
      · rw [resetCharge, hcharged] at huncharged
        cases huncharged
      · have hsteady : Steady W (sameName email) s.db
            (resetTrafficByEmail env x.desk.client x.desk.reset s.db email).1 :=
          (steady_frame hW).resetTrafficByEmail fun _ h => h
        exact hsteady.withheld hunnamed

theorem serve_withheld {r : ShopRequest} (hover : overBandwidthQuota s.toPanel W = true)
    (htenant : user.tenantId = W) (h : Stopped env W user x s r) :
    Withheld W s.db (serve env user x s r).1.db := by
  have hW := over_pos hover
  cases r with
  | create payload =>
    have hgated : user.tenantId ≠ globalTenantId ∧ overBandwidthQuota s.toPanel user.tenantId = true := by
      rw [htenant]
      exact ⟨hW, hover⟩
    rw [serve, onPanel, createClient, if_pos hgated]
    exact .refl W _
  | attach email inboundIds =>
    rw [serve, onPanel, attachClient, owned]
    split
    · have hsteady : Steady W (fun _ => False) s.db (attachByEmail env x.desk.client s.db email inboundIds).1 :=
        (steady_frame hW).attachByEmail
      exact hsteady.withheld fun _ _ => id
    · exact .refl W _
  | purchase productId name view =>
    rw [serve]
    exact purchase_withheld hW h
  | renew productId email view =>
    rw [serve]
    exact renew_withheld hW h
  | resetTraffic email =>
    rw [serve, onPanel]
    exact resetClient_withheld hW h

end gate

section runs

variable {env : Env} {W : Int} {s : Shop}

inductive Event
  | request (user : Account) (x : ShopDraw) (r : ShopRequest)
  | elsewhere (s : Shop)

def Event.after (env : Env) (s : Shop) : Event → Shop
  | .request user x r => (serve env user x s r).1
  | .elsewhere s' => s'

def StoppedAt (env : Env) (W : Int) (s : Shop) : Event → Prop
  | .request user x r =>
    user.tenantId = W → overBandwidthQuota s.toPanel W = true → Stopped env W user x s r
  | .elsewhere _ => True

def WithheldAt (env : Env) (W : Int) (s : Shop) : Event → Prop
  | .request user x r =>
    user.tenantId = W → overBandwidthQuota s.toPanel W = true → Withheld W s.db (serve env user x s r).1.db
  | .elsewhere _ => True

theorem withheld_of_stopped {a : Event} (h : StoppedAt env W s a) : WithheldAt env W s a := by
  cases a with
  | request user x r => exact fun htenant hover => serve_withheld hover htenant (h htenant hover)
  | elsewhere s' => trivial

theorem quota_gates_provisioning (env : Env) (W : Int) (s : Shop) (acts : List Event)
    (h : Trace.Throughout (Event.after env) (StoppedAt env W) s acts) :
    Trace.Throughout (Event.after env) (WithheldAt env W) s acts :=
  h.imp fun _ _ => withheld_of_stopped

end runs

def oldClient : Client := { freshClient "old" 100 with id := "u", subID := "s" }

def exhaustedShop : Shop where
  db :=
    { inbounds := Table.empty.insert (fun id => ⟨id, .vless, none, "", true, some [oldClient]⟩) fun _ => rfl
      records := Table.empty.insert (fun recordId => ⟨oldClient, recordId, 9, 4⟩) fun _ => rfl
      links := [⟨1, 1, ""⟩]
      traffics := [⟨1, "old", 60, 40, 100, 0, true, 0⟩] }
  workspaceInbounds := fun _ => []
  quotas := fun tenantId => if tenantId = 4 then some ⟨100, 100⟩ else none
  clientCost := fun _ _ => (0, 10)
  resetCost := fun _ _ => (0, 5)
  charges := []
  products := fun id => if id = 5 then some ⟨5, 4, "plan", 1000, 30, 100, .all, [1], .active⟩ else none

def customer : Account := ⟨⟨⟨9, "cust", .member, 4, 1000, 0⟩, [], 0⟩, by decide⟩

def paid : ShopDraw where
  desk := smooth
  order := ⟨none, none, .ok 1, granted, granted, granted, granted⟩

def freshPayload : ClientCreatePayload := ⟨freshClient "cfg" 100, [1], 0, 0⟩

theorem quota_gates_provisioning_create_and_unlisted :
    Trace.Throughout (Event.after plainEnv) (WithheldAt plainEnv 4) exhaustedShop
      [.request customer paid (.create freshPayload),
        .request customer paid (.purchase 6 "cfg" (.tenantOnly 4))] := by
  apply quota_gates_provisioning
  refine ⟨fun _ _ => trivial, fun _ _ => ?_, trivial⟩
  intro product orderId hpurchasable
  have hunlisted : (purchasable customer paid.order (Event.after plainEnv exhaustedShop
      (.request customer paid (.create freshPayload))) 6 (.tenantOnly 4)).isOk = false := by decide +kernel
  rw [hpurchasable] at hunlisted
  cases hunlisted

theorem exhausted_workspace_served :
    overBandwidthQuota exhaustedShop.toPanel 4 = true ∧
      (serve plainEnv customer paid exhaustedShop (.create freshPayload)).2 = .error bandwidthExhausted ∧
      ([ShopRequest.purchase 5 "cfg" (.tenantOnly 4), .renew 5 "old" (.tenantOnly 4),
        .resetTraffic "old"].all fun r => (serve plainEnv customer paid exhaustedShop r).2.isOk) = true ∧
      ¬ WithheldAt plainEnv 4 exhaustedShop (.request customer paid (.purchase 5 "cfg" (.tenantOnly 4))) ∧
      ¬ WithheldAt plainEnv 4 exhaustedShop (.request customer paid (.renew 5 "old" (.tenantOnly 4))) ∧
      ¬ WithheldAt plainEnv 4 exhaustedShop (.request customer paid (.resetTraffic "old")) := by
  have hover : overBandwidthQuota exhaustedShop.toPanel 4 = true := by decide +kernel
  have hmember : "old" ∈ workspaceClients exhaustedShop.db 4 := by decide +kernel
  have hbefore : exhaustedShop.db.traffic "old" = some ⟨1, "old", 60, 40, 100, 0, true, 0⟩ := by decide +kernel
  refine ⟨hover, by rfl, by decide +kernel, ?_, ?_, ?_⟩
  · intro h
    have hnew : "cfg" ∈ workspaceClients (serve plainEnv customer paid exhaustedShop
        (.purchase 5 "cfg" (.tenantOnly 4))).1.db 4 := by decide +kernel
    have hold := (h rfl hover).clients "cfg" hnew
    exact absurd hold (by decide +kernel)
  · intro h
    have hafter : (serve plainEnv customer paid exhaustedShop (.renew 5 "old" (.tenantOnly 4))).1.db.traffic
        "old" = some ⟨1, "old", 0, 0, 1000, 2592000000, true, 0⟩ := by decide +kernel
    exact (h rfl hover).traffic "old" hmember _ _ hbefore hafter (.inl (by decide))
  · intro h
    have hafter : (serve plainEnv customer paid exhaustedShop (.resetTraffic "old")).1.db.traffic
        "old" = some ⟨1, "old", 0, 0, 100, 0, true, 0⟩ := by decide +kernel
    exact (h rfl hover).traffic "old" hmember _ _ hbefore hafter (.inl (by decide))

end Clients

end QuiPanel
