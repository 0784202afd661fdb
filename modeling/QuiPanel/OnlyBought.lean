import QuiPanel.ProductSync

namespace QuiPanel

namespace OnlyBought

open Keyed Trace ProductSync List

section model

inductive Kind
  | purchase
  | renewal
  deriving DecidableEq

structure OrderRow where
  id : Int
  productId : Int
  status : OrderStatus
  clientEmail : String
  deriving DecidableEq

structure ClientRow where
  id : Int
  email : String
  deriving DecidableEq

structure Request where
  order : Int
  kind : Kind
  productId : Int
  inboundIds : List Int
  email : String
  client : Option Int
  deriving DecidableEq

structure Sys where
  products : Table Product Product.id
  orders : Table OrderRow OrderRow.id
  clients : Table ClientRow ClientRow.id
  links : List (String × Int)
  requests : List Request
  served : List (Int × Int)

inductive Event
  | purchase (productId : Int)
  | provision (order : Int) (email : String) (landed : List Int) (whole : Bool)
  | renew (productId : Int) (email : String)
  | applyPlan (order : Int) (applied : Bool)
  | finish (order : Int) (stored : Bool)
  | create (email : String) (landed : List Int)
  | rename (id : Int) (email : String)
  | delete (id : Int)
  | attach (email : String) (inboundIds : List Int) (out : Nat → AddOutcome)
  | detach (email : String) (inboundIds : List Int) (out : Nat → DelOutcome)
  | updateProduct (id : Int) (inboundIds : List Int) (status : ProductStatus) (draws : String → ClientDraws)
  | reconcileAllProducts (draws : Int → String → Nat → Nat → AddOutcome)

namespace Sys

variable (s : Sys)

def records : List String := s.clients.rows.map ClientRow.email

def db : DB := ⟨s.products, s.orders.rows.map fun o => (o.productId, o.clientEmail), s.records, s.links⟩

def request (order : Int) : Option Request := s.requests.find? (·.order = order)

def clientOf (email : String) : Option ClientRow := s.clients.rows.find? (·.email = email)

end Sys

def openOrder (s : Sys) (kind : Kind) (p : Product) (email : String) : Sys :=
  { s with
    orders := s.orders.insert (fun id => ⟨id, p.id, .pending, email⟩) fun _ => rfl
    requests := s.requests ++ [⟨s.orders.next, kind, p.id, p.inboundIds, email, none⟩] }

def closed (s : Sys) (order : Int) : List Request := s.requests.filter (·.order ≠ order)

def cancel (s : Sys) (order : Int) : Sys :=
  { s with
    orders := s.orders.modify (·.id == order) (fun o => { o with status := .cancelled }) fun _ => rfl
    requests := closed s order }

def complete (s : Sys) (r : Request) : Sys :=
  { s with
    orders := s.orders.modify (·.id == r.order) (fun o => { o with
      status := .completed
      clientEmail := if r.kind = .purchase then r.email else o.clientEmail }) fun _ => rfl
    requests := closed s r.order }

def serve (s : Sys) (r : Request) (email : String) (client : Int) : Sys :=
  { s with
    served := s.served ++ [(r.order, client)]
    requests := closed s r.order ++ [{ r with email, client := some client }] }

def createClient (s : Sys) (email : String) (landed : List Int) : Sys :=
  { s with
    clients := s.clients.insert (fun id => ⟨id, email⟩) fun _ => rfl
    links := s.links ++ landed.dedup.map fun i => (email, i) }

def purchase (s : Sys) (productId : Int) : Sys :=
  match s.products.find productId with
  | none => s
  | some p => if p.status = .active then openOrder s .purchase p "" else s

def renew (s : Sys) (productId : Int) (email : String) : Sys :=
  match s.products.find productId with
  | none => s
  | some p => if p.status = .active ∧ email ∈ s.records then openOrder s .renewal p email else s

def provision (s : Sys) (order : Int) (email : String) (landed : List Int) (whole : Bool) : Sys :=
  match s.request order with
  | none => s
  | some r =>
    if r.kind = .purchase ∧ r.inboundIds ≠ [] ∧ r.client = none ∧ email ≠ "" then
      if email ∈ s.records then cancel s order
      else if whole then serve (createClient s email r.inboundIds) r email s.clients.next
      else cancel (if landed = [] then s else createClient s email landed) order
    else s

def applyPlan (s : Sys) (order : Int) (applied : Bool) : Sys :=
  match s.request order with
  | none => s
  | some r =>
    if r.kind = .renewal ∧ r.client = none then
      match s.clientOf r.email with
      | none => cancel s order
      | some c => if applied then serve s r r.email c.id else cancel s order
    else s

def finish (s : Sys) (order : Int) (stored : Bool) : Sys :=
  match s.request order with
  | none => s
  | some r =>
    if r.client.isSome ∨ (r.kind = .purchase ∧ r.inboundIds = []) then
      if stored then complete s r else { s with requests := closed s order }
    else s

def create (s : Sys) (email : String) (landed : List Int) : Sys :=
  if email = "" ∨ email ∈ s.records ∨ landed = [] then s else createClient s email landed

def rename (s : Sys) (id : Int) (email : String) : Sys :=
  match s.clients.find id with
  | none => s
  | some c =>
    if email = "" ∨ email ∈ s.records then s
    else
      { s with
        clients := s.clients.modify (·.id == id) (fun c => { c with email }) fun _ => rfl
        links := s.links.map fun l => if l.1 = c.email then (email, l.2) else l }

def delete (s : Sys) (id : Int) : Sys :=
  match s.clients.find id with
  | none => s
  | some c =>
    { s with
      clients := s.clients.delete (·.id == id)
      links := s.links.filter (·.1 ≠ c.email) }

theorem relisted_id (inboundIds : List Int) (status : ProductStatus) (p : Product) :
    ({ p with inboundIds, status } : Product).id = p.id := rfl

def updated (s : Sys) (id : Int) (inboundIds : List Int) (status : ProductStatus) : Sys :=
  { s with
    products := s.products.modify (·.id == id) (fun p => { p with inboundIds, status }) (relisted_id inboundIds status) }

def reconciled (s : Sys) (id : Int) (old : Product) (inboundIds : List Int) (status : ProductStatus)
    (draws : String → ClientDraws) : DB :=
  let diff := inboundDiff old.inboundIds inboundIds
  (reconcileProductClients (updated s id inboundIds status).db id diff.1 diff.2 draws).1

def updateProduct (s : Sys) (id : Int) (inboundIds : List Int) (status : ProductStatus)
    (draws : String → ClientDraws) : Sys :=
  match s.products.find id with
  | none => s
  | some old =>
    { updated s id inboundIds status with links := (reconciled s id old inboundIds status draws).links }

def step (s : Sys) : Event → Sys
  | .purchase productId => purchase s productId
  | .provision order email landed whole => provision s order email landed whole
  | .renew productId email => renew s productId email
  | .applyPlan order applied => applyPlan s order applied
  | .finish order stored => finish s order stored
  | .create email landed => create s email landed
  | .rename id email => rename s id email
  | .delete id => delete s id
  | .attach email inboundIds out => { s with links := (attachByEmail s.db email inboundIds out).1.links }
  | .detach email inboundIds out => { s with links := (detachByEmailMany s.db email inboundIds out).1.links }
  | .updateProduct id inboundIds status draws => updateProduct s id inboundIds status draws
  | .reconcileAllProducts draws => { s with links := (reconcileAllProducts s.db draws).1.links }

def start (products : Table Product Product.id) : Sys := ⟨products, Table.empty, Table.empty, [], [], []⟩

end model

section claims

structure Pass where
  productId : Int
  before : DB
  after : DB

def passes (draws : Int → String → Nat → Nat → AddOutcome) : DB × List SyncAudit → List Product → List Pass
  | _, [] => []
  | st, p :: ps =>
    let st' := repairProduct draws st p
    ⟨p.id, st.1, st'.1⟩ :: passes draws st' ps

def syncPasses (s : Sys) : Event → List Pass
  | .updateProduct id inboundIds status draws =>
    match s.products.find id with
    | none => []
    | some old => [⟨id, s.db, reconciled s id old inboundIds status draws⟩]
  | .reconcileAllProducts draws => passes draws (s.db, []) (activeProducts s.db)
  | _ => []

def Bought (s : Sys) (client productId : Int) : Prop :=
  ∃ o ∈ s.orders.rows, o.status = .completed ∧ o.productId = productId ∧ (o.id, client) ∈ s.served

def Serves (s : Sys) (e : Event) : Prop :=
  ∀ pass ∈ syncPasses s e, ∀ l ∈ pass.after.links, l ∉ pass.before.links →
    ∃ c ∈ s.clients.rows, c.email = l.1 ∧ Bought s c.id pass.productId

def Unnamed (s : Sys) (email : String) : Prop :=
  ∀ o ∈ s.orders.rows, o.status ≠ .pending → o.clientEmail ≠ email

def NonePending (s : Sys) (productId : Int) (ids : List Int) : Prop :=
  ∀ o ∈ s.orders.rows, o.status = .pending → o.productId = productId → o.clientEmail ≠ "" →
    ∀ c ∈ s.clients.rows, c.email = o.clientEmail → (∃ i ∈ ids, (c.email, i) ∉ s.links) →
      Bought s c.id productId

def Clean (s : Sys) : Event → Prop
  | .provision _ email landed whole => (whole = true ∨ landed ≠ []) → email ∉ s.records → Unnamed s email
  | .applyPlan order applied => ∀ r, s.request order = some r → r.kind = .renewal → applied = false →
      ∀ c ∈ s.clients.rows, c.email = r.email → Bought s c.id r.productId
  | .finish order stored => ∀ r, s.request order = some r → stored = true →
      ∀ c ∈ s.clients.rows, c.email = r.email → r.client = some c.id ∨ Bought s c.id r.productId
  | .create email landed => landed ≠ [] → email ∉ s.records → Unnamed s email
  | .rename id email => email ∉ s.records → ∀ o ∈ s.orders.rows, o.status ≠ .pending → o.clientEmail = email →
      Bought s id o.productId
  | .updateProduct id inboundIds _ _ => ∀ old, s.products.find id = some old →
      NonePending s id (inboundDiff old.inboundIds inboundIds).1
  | .reconcileAllProducts _ => ∀ p ∈ activeProducts s.db, NonePending s p.id p.inboundIds
  | _ => True

end claims

section invariant

variable {s s' : Sys} {r : Request} {order c productId : Int} {email : String}

structure Inv (s : Sys) : Prop where
  named : ∀ o ∈ s.orders.rows, o.status ≠ .pending → o.clientEmail ≠ "" →
    ∀ c ∈ s.clients.rows, c.email = o.clientEmail → Bought s c.id o.productId
  flight : ∀ r ∈ s.requests, ∀ o ∈ s.orders.rows, o.id = r.order →
    o.status = .pending ∧ o.productId = r.productId ∧ (r.kind = .renewal → o.clientEmail = r.email)
  blank : ∀ r ∈ s.requests, ∀ o ∈ s.orders.rows, o.id = r.order → r.kind = .purchase → o.clientEmail = ""
  carried : ∀ r ∈ s.requests, ∀ c, r.client = some c → (r.order, c) ∈ s.served
  below : ∀ r ∈ s.requests, r.order < s.orders.next

theorem mem_request (h : s.request order = some r) : r ∈ s.requests ∧ r.order = order :=
  ⟨mem_of_find?_eq_some h, by simpa using find?_some h⟩

theorem mem_closed : r ∈ closed s order ↔ r ∈ s.requests ∧ r.order ≠ order := by
  simp [closed]

theorem mem_records : email ∈ s.records ↔ ∃ c ∈ s.clients.rows, c.email = email := by
  simp [Sys.records]

theorem Bought.mono (horders : ∀ o ∈ s.orders.rows, o.status = .completed → o ∈ s'.orders.rows)
    (hserved : ∀ e ∈ s.served, e ∈ s'.served) (h : Bought s c productId) : Bought s' c productId := by
  obtain ⟨o, ho, hdone, hproduct, hmem⟩ := h
  exact ⟨o, horders o ho hdone, hdone, hproduct, hserved _ hmem⟩

theorem Inv.links (h : Inv s) (horders : s'.orders = s.orders) (hclients : s'.clients = s.clients)
    (hrequests : s'.requests = s.requests) (hserved : s'.served = s.served) : Inv s' := by
  have hbought : ∀ {c p}, Bought s c p → Bought s' c p :=
    Bought.mono (fun o ho _ => by rwa [horders]) (fun e he => by rwa [hserved])
  refine ⟨?_, ?_, ?_, ?_, ?_⟩
  · rw [horders, hclients]
    exact fun o ho hsettled hne c hc hemail => hbought (h.named o ho hsettled hne c hc hemail)
  · rw [hrequests, horders]
    exact h.flight
  · rw [hrequests, horders]
    exact h.blank
  · rw [hrequests, hserved]
    exact h.carried
  · rw [hrequests, horders]
    exact h.below

theorem close_inv (h : Inv s) : Inv { s with requests := closed s order } :=
  ⟨h.named, fun r hr => h.flight r (mem_closed.mp hr).1, fun r hr => h.blank r (mem_closed.mp hr).1,
    fun r hr => h.carried r (mem_closed.mp hr).1, fun r hr => h.below r (mem_closed.mp hr).1⟩

theorem openOrder_inv {kind : Kind} {p : Product} (h : Inv s) (hblank : kind = .purchase → email = "") :
    Inv (openOrder s kind p email) := by
  refine ⟨?_, ?_, ?_, ?_, ?_⟩
  · intro o ho hsettled hne c hc hemail
    rcases Table.mem_insert.mp ho with ho | rfl
    · exact (h.named o ho hsettled hne c hc hemail).mono
        (fun o ho _ => Table.mem_insert.mpr (.inl ho)) fun _ he => he
    · exact absurd rfl hsettled
  · intro r hr o ho hid
    rcases Table.mem_insert.mp ho with ho | rfl
    · rcases mem_append.mp hr with hr | hr
      · exact h.flight r hr o ho hid
      · obtain rfl := mem_singleton.mp hr
        exact absurd hid (Int.ne_of_lt (s.orders.below o ho))
    · rcases mem_append.mp hr with hr | hr
      · exact absurd hid.symm (Int.ne_of_lt (h.below r hr))
      · obtain rfl := mem_singleton.mp hr
        exact ⟨rfl, rfl, fun _ => rfl⟩
  · intro r hr o ho hid hkind
    rcases Table.mem_insert.mp ho with ho | rfl
    · rcases mem_append.mp hr with hr | hr
      · exact h.blank r hr o ho hid hkind
      · obtain rfl := mem_singleton.mp hr
        exact absurd hid (Int.ne_of_lt (s.orders.below o ho))
    · rcases mem_append.mp hr with hr | hr
      · exact absurd hid.symm (Int.ne_of_lt (h.below r hr))
      · obtain rfl := mem_singleton.mp hr
        exact hblank hkind
  · intro r hr c hc
    rcases mem_append.mp hr with hr | hr
    · exact h.carried r hr c hc
    · obtain rfl := mem_singleton.mp hr
      cases hc
  · intro r hr
    have hnext : (openOrder s kind p email).orders.next = s.orders.next + 1 := rfl
    rw [hnext]
    rcases mem_append.mp hr with hr | hr
    · have := h.below r hr
      omega
    · obtain rfl := mem_singleton.mp hr
      exact Int.lt_add_one_of_le le_rfl

theorem createClient_inv {landed : List Int} (h : Inv s) (hunnamed : Unnamed s email) :
    Inv (createClient s email landed) := by
  refine ⟨?_, h.flight, h.blank, h.carried, h.below⟩
  intro o ho hsettled hne c hc hemail
  rcases Table.mem_insert.mp hc with hc | rfl
  · exact h.named o ho hsettled hne c hc hemail
  · exact absurd hemail.symm (hunnamed o ho hsettled)

theorem serve_inv {client : Int} (h : Inv s) (hr : r ∈ s.requests) (hemail : r.kind = .renewal → email = r.email) :
    Inv (serve s r email client) := by
  have hserved : ∀ e ∈ s.served, e ∈ (serve s r email client).served := fun e he =>
    mem_append.mpr (.inl he)
  have hbought : ∀ {c p}, Bought s c p → Bought (serve s r email client) c p :=
    Bought.mono (fun o ho _ => ho) hserved
  have hrequests : ∀ q ∈ (serve s r email client).requests,
      q ∈ s.requests ∨ q = { r with email, client := some client } := by
    intro q hq
    rcases mem_append.mp hq with hq | hq
    · exact .inl (mem_closed.mp hq).1
    · exact .inr (mem_singleton.mp hq)
  refine ⟨?_, ?_, ?_, ?_, ?_⟩
  · intro o ho hsettled hne c hc heq
    exact hbought (h.named o ho hsettled hne c hc heq)
  · intro q hq o ho hid
    rcases hrequests q hq with hq | rfl
    · exact h.flight q hq o ho hid
    · obtain ⟨hpending, hproduct, hnamed⟩ := h.flight r hr o ho hid
      refine ⟨hpending, hproduct, ?_⟩
      intro hkind
      rw [hnamed hkind, ← hemail hkind]
  · intro q hq o ho hid hkind
    rcases hrequests q hq with hq | rfl
    · exact h.blank q hq o ho hid hkind
    · exact h.blank r hr o ho hid hkind
  · intro q hq c hc
    rcases hrequests q hq with hq | rfl
    · exact hserved _ (h.carried q hq c hc)
    · cases hc
      exact mem_append.mpr (.inr (mem_singleton_self _))
  · intro q hq
    rcases hrequests q hq with hq | rfl
    · exact h.below q hq
    · exact h.below r hr

def Settles (s s' : Sys) (order : Int) (f : OrderRow → OrderRow) : Prop :=
  s'.orders.rows = s.orders.rows.map fun o => if o.id == order then f o else o

variable {f : OrderRow → OrderRow}

variable {o : OrderRow}

theorem mem_settle (h : Settles s s' order f) (ho : o ∈ s'.orders.rows) :
    (o ∈ s.orders.rows ∧ o.id ≠ order) ∨ ∃ o' ∈ s.orders.rows, o'.id = order ∧ o = f o' := by
  rw [h] at ho
  obtain ⟨o', ho', heq⟩ := mem_map.mp ho
  split at heq
  · next hid => exact .inr ⟨o', ho', by simpa using hid, heq.symm⟩
  · next hid =>
    subst heq
    exact .inl ⟨ho', by simpa using hid⟩

theorem settle_other (h : Settles s s' order f)
    (ho : o ∈ s.orders.rows) (hid : o.id ≠ order) : o ∈ s'.orders.rows := by
  rw [h]
  exact mem_map.mpr ⟨o, ho, if_neg fun hsame => hid (beq_iff_eq.mp hsame)⟩

theorem settle_same (h : Settles s s' order f)
    (ho : o ∈ s.orders.rows) (hid : o.id = order) : f o ∈ s'.orders.rows := by
  rw [h]
  exact mem_map.mpr ⟨o, ho, if_pos (beq_iff_eq.mpr hid)⟩

theorem cancel_settles : Settles s (cancel s order) order fun o => { o with status := .cancelled } := rfl

theorem complete_settles : Settles s (complete s r) r.order fun o => { o with
    status := .completed
    clientEmail := if r.kind = .purchase then r.email else o.clientEmail } := rfl

theorem Inv.not_completed (h : Inv s) (hr : r ∈ s.requests) (ho : o ∈ s.orders.rows)
    (hdone : o.status = .completed) : o.id ≠ r.order := by
  intro hid
  have hpending := (h.flight r hr o ho hid).1
  rw [hdone] at hpending
  cases hpending

theorem settle_inv (h : Inv s) (hsettles : Settles s s' order f)
    (hf : ∀ o, (f o).id = o.id) (hnext : s'.orders.next = s.orders.next) (hclients : s'.clients = s.clients)
    (hrequests : s'.requests = closed s order) (hserved : s'.served = s.served)
    (hbought : ∀ {c p}, Bought s c p → Bought s' c p)
    (hnamed : ∀ o ∈ s.orders.rows, o.id = order → (f o).clientEmail ≠ "" → ∀ c ∈ s.clients.rows,
      c.email = (f o).clientEmail → Bought s' c.id (f o).productId) : Inv s' := by
  have hother : ∀ q ∈ s'.requests, ∀ o ∈ s'.orders.rows, o.id = q.order →
      q ∈ s.requests ∧ o ∈ s.orders.rows := by
    rw [hrequests]
    intro q hq o ho hid
    obtain ⟨hq, hother⟩ := mem_closed.mp hq
    rcases mem_settle hsettles ho with ⟨ho, -⟩ | ⟨o', -, hid', rfl⟩
    · exact ⟨hq, ho⟩
    · rw [hf] at hid
      exact absurd (hid.symm.trans hid') hother
  refine ⟨?_, ?_, ?_, ?_, ?_⟩
  · rw [hclients]
    intro o ho hsettled hne c hc hemail
    rcases mem_settle hsettles ho with ⟨ho, -⟩ | ⟨o', ho', hid, rfl⟩
    · exact hbought (h.named o ho hsettled hne c hc hemail)
    · exact hnamed o' ho' hid hne c hc hemail
  · intro q hq o ho hid
    obtain ⟨hq, ho⟩ := hother q hq o ho hid
    exact h.flight q hq o ho hid
  · intro q hq o ho hid
    obtain ⟨hq, ho⟩ := hother q hq o ho hid
    exact h.blank q hq o ho hid
  · rw [hrequests, hserved]
    exact fun q hq => h.carried q (mem_closed.mp hq).1
  · rw [hrequests, hnext]
    exact fun q hq => h.below q (mem_closed.mp hq).1

theorem cancel_inv (h : Inv s) (hr : s.request order = some r)
    (hclean : r.kind = .renewal → ∀ c ∈ s.clients.rows, c.email = r.email → Bought s c.id r.productId) :
    Inv (cancel s order) := by
  obtain ⟨hmem, hid⟩ := mem_request hr
  have hbought : ∀ {c p}, Bought s c p → Bought (cancel s order) c p := by
    refine Bought.mono (fun o ho hdone => ?_) fun e he => he
    exact settle_other cancel_settles ho (hid ▸ h.not_completed hmem ho hdone)
  refine settle_inv h cancel_settles (fun _ => rfl) rfl rfl rfl rfl hbought ?_
  intro o ho hsame hne c hc hemail
  obtain ⟨-, hproduct, hrenewal⟩ := h.flight r hmem o ho (hsame.trans hid.symm)
  cases hkind : r.kind with
  | purchase => exact absurd (h.blank r hmem o ho (hsame.trans hid.symm) hkind) hne
  | renewal =>
    have hserved := hclean hkind c hc (hemail.trans (hrenewal hkind))
    rw [← hproduct] at hserved
    exact hbought hserved

theorem complete_inv (h : Inv s) (hr : s.request order = some r)
    (hclean : ∀ c ∈ s.clients.rows, c.email = r.email → r.client = some c.id ∨ Bought s c.id r.productId) :
    Inv (complete s r) := by
  obtain ⟨hmem, hid⟩ := mem_request hr
  have hbought : ∀ {c p}, Bought s c p → Bought (complete s r) c p := by
    refine Bought.mono (fun o ho hdone => ?_) fun e he => he
    exact settle_other complete_settles ho (h.not_completed hmem ho hdone)
  refine settle_inv h complete_settles (fun _ => rfl) rfl rfl rfl rfl hbought ?_
  intro o ho hsame hne c hc hemail
  obtain ⟨-, hproduct, hrenewal⟩ := h.flight r hmem o ho hsame
  have hnamed : c.email = r.email := by
    refine hemail.trans ?_
    cases hkind : r.kind with
    | purchase => rfl
    | renewal => exact hrenewal hkind
  rcases hclean c hc hnamed with hserved | hserved
  · refine ⟨_, settle_same complete_settles ho hsame, rfl, rfl, ?_⟩
    have hcarried := h.carried r hmem c.id hserved
    rw [← hsame] at hcarried
    exact hcarried
  · rw [← hproduct] at hserved
    exact hbought hserved

end invariant

section steps

variable {s : Sys} {e : Event}

theorem step_inv (h : Inv s) (hclean : Clean s e) : Inv (step s e) := by
  cases e with
  | purchase productId =>
    change Inv (purchase s productId)
    unfold purchase
    split
    · exact h
    · split
      · exact openOrder_inv h fun _ => rfl
      · exact h
  | renew productId email =>
    change Inv (renew s productId email)
    unfold renew
    split
    · exact h
    · split
      · exact openOrder_inv h fun hkind => by cases hkind
      · exact h
  | provision order email landed whole =>
    change Inv (provision s order email landed whole)
    unfold provision
    split
    · exact h
    · next r hr =>
      obtain ⟨hmem, hid⟩ := mem_request hr
      split
      · next hopen =>
        have hkind : ∀ {P : Prop}, r.kind = .renewal → P := by
          intro P hrenewal
          rw [hopen.1] at hrenewal
          cases hrenewal
        split
        · exact cancel_inv h hr fun hrenewal => hkind hrenewal
        · next hfree =>
          split
          · next hwhole =>
            exact serve_inv (createClient_inv h (hclean (.inl hwhole) hfree)) hmem fun hrenewal => hkind hrenewal
          · split
            · exact cancel_inv h hr fun hrenewal => hkind hrenewal
            · next hlanded =>
              exact cancel_inv (createClient_inv h (hclean (.inr hlanded) hfree)) hr fun hrenewal => hkind hrenewal
      · exact h
  | applyPlan order applied =>
    change Inv (applyPlan s order applied)
    unfold applyPlan
    split
    · exact h
    · next r hr =>
      obtain ⟨hmem, hid⟩ := mem_request hr
      split
      · next hopen =>
        split
        · next hnone =>
          refine cancel_inv h hr fun _ c hc hemail => ?_
          have hnot := find?_eq_none.mp hnone c hc
          exact absurd (decide_eq_true hemail) hnot
        · split
          · exact serve_inv h hmem fun _ => rfl
          · next happlied =>
            exact cancel_inv h hr fun hkind => hclean r hr hkind (Bool.eq_false_of_not_eq_true happlied)
      · exact h
  | finish order stored =>
    change Inv (finish s order stored)
    unfold finish
    split
    · exact h
    · next r hr =>
      split
      · split
        · next hstored => exact complete_inv h hr (hclean r hr hstored)
        · exact close_inv h
      · exact h
  | create email landed =>
    change Inv (create s email landed)
    unfold create
    split
    · exact h
    · next hnew =>
      rw [not_or, not_or] at hnew
      exact createClient_inv h (hclean hnew.2.2 hnew.2.1)
  | rename id email =>
    change Inv (rename s id email)
    unfold rename
    split
    · exact h
    · split
      · exact h
      · next hnew =>
        rw [not_or] at hnew
        refine ⟨?_, h.flight, h.blank, h.carried, h.below⟩
        intro o ho hsettled hne c hc hemail
        obtain ⟨c', hc', heq⟩ := mem_map.mp hc
        split at heq
        · next hid =>
          subst heq
          have hserved := hclean hnew.2 o ho hsettled hemail.symm
          rw [← beq_iff_eq.mp hid] at hserved
          exact hserved
        · subst heq
          exact h.named o ho hsettled hne c' hc' hemail
  | delete id =>
    change Inv (delete s id)
    unfold delete
    split
    · exact h
    · refine ⟨?_, h.flight, h.blank, h.carried, h.below⟩
      intro o ho hsettled hne c hc hemail
      exact h.named o ho hsettled hne c (Table.mem_delete.mp hc).1 hemail
  | attach => exact h.links rfl rfl rfl rfl
  | detach => exact h.links rfl rfl rfl rfl
  | reconcileAllProducts => exact h.links rfl rfl rfl rfl
  | updateProduct id inboundIds status draws =>
    change Inv (updateProduct s id inboundIds status draws)
    unfold updateProduct
    split
    · exact h
    · exact h.links rfl rfl rfl rfl

theorem start_inv (products : Table Product Product.id) : Inv (start products) := by
  refine ⟨?_, ?_, ?_, ?_, ?_⟩
  · exact fun o ho => absurd ho not_mem_nil
  · exact fun r hr => absurd hr not_mem_nil
  · exact fun r hr => absurd hr not_mem_nil
  · exact fun r hr => absurd hr not_mem_nil
  · exact fun r hr => absurd hr not_mem_nil

end steps

section syncs

variable {s : Sys} {email : String} {id productId : Int} {ids : List Int}

theorem named_bought (h : Inv s) (hpending : NonePending s productId ids)
    (hemail : email ∈ s.db.productClientEmails productId) (hrecord : email ∈ s.records)
    (hmissing : ∃ i ∈ ids, (email, i) ∉ s.links) :
    ∃ c ∈ s.clients.rows, c.email = email ∧ Bought s c.id productId := by
  obtain ⟨hmem, hne⟩ := mem_productClientEmails.mp hemail
  obtain ⟨o, ho, heq⟩ := mem_map.mp hmem
  obtain ⟨rfl, rfl⟩ := Prod.mk.inj heq
  obtain ⟨c, hc, hname⟩ := mem_records.mp hrecord
  refine ⟨c, hc, hname, ?_⟩
  by_cases hstatus : o.status = .pending
  · rw [← hname] at hmissing
    exact hpending o ho hstatus rfl hne c hc hname hmissing
  · exact h.named o ho hstatus hne c hc hname

theorem reconciled_served {old : Product} {status : ProductStatus} {draws : String → ClientDraws} (h : Inv s)
    (hpending : NonePending s id (inboundDiff old.inboundIds ids).1) {l : String × Int}
    (hl : l ∈ (reconciled s id old ids status draws).links) (hnew : l ∉ s.links) :
    ∃ c ∈ s.clients.rows, c.email = l.1 ∧ Bought s c.id id := by
  obtain ⟨email, i⟩ := l
  by_cases hemail : email ∈ s.db.productClientEmails id
  · have hsynced := @reconcileProductClients_synced (updated s id ids status).db email
      (inboundDiff old.inboundIds ids).1 (inboundDiff old.inboundIds ids).2 draws id hemail
    rcases hsynced.added i hl with hold | ⟨hadd, hrecord⟩
    · exact absurd hold hnew
    · exact named_bought h hpending hemail hrecord ⟨i, hadd, hnew⟩
  · have hsame := (@reconcileProductClients_frame (updated s id ids status).db email
      (inboundDiff old.inboundIds ids).1 (inboundDiff old.inboundIds ids).2 draws id).2 hemail
    exact absurd ((hsame i).mp hl) hnew

theorem passes_served {draws : Int → String → Nat → Nat → AddOutcome} {products : List Product}
    {st : DB × List SyncAudit} (h : Inv s) (hframe : Frame s.db st.1) (hkept : ∀ l ∈ s.links, l ∈ st.1.links)
    (hpending : ∀ p ∈ products, NonePending s p.id p.inboundIds) :
    ∀ pass ∈ passes draws st products, ∀ l ∈ pass.after.links, l ∉ pass.before.links →
      ∃ c ∈ s.clients.rows, c.email = l.1 ∧ Bought s c.id pass.productId := by
  induction products generalizing st with
  | nil => exact fun pass hpass => absurd hpass not_mem_nil
  | cons p products ih =>
    obtain ⟨hspread, -⟩ := @repairProduct_spread p st draws
    intro pass hpass l hl hnew
    rcases mem_cons.mp hpass with rfl | hpass
    · rcases hspread.added l hl with hold | ⟨hrecord, hsold, hid⟩
      · exact absurd hold hnew
      · have hemail := hsold.1
        rw [hframe.emails] at hemail
        have hlisted : l.1 ∈ s.db.records := hframe.records ▸ hrecord
        exact named_bought h (hpending p mem_cons_self) hemail hlisted
          ⟨l.2, hid, fun hold => hnew (hkept l hold)⟩
    · exact ih (hframe.trans hspread.frame) (fun l hl => hspread.kept l (hkept l hl))
        (fun p hp => hpending p (mem_cons_of_mem _ hp)) pass hpass l hl hnew

theorem step_serves {e : Event} (h : Inv s) (hclean : Clean s e) : Serves s e := by
  cases e with
  | updateProduct id inboundIds status draws =>
    intro pass hpass l hl hnew
    simp only [syncPasses] at hpass
    split at hpass
    · exact absurd hpass not_mem_nil
    · next old hfind =>
      obtain rfl := mem_singleton.mp hpass
      exact reconciled_served h (hclean old hfind) hl hnew
  | reconcileAllProducts draws => exact passes_served h (Frame.refl _) (fun _ hl => hl) hclean
  | purchase | provision | renew | applyPlan | finish | create | rename | delete | attach | detach =>
    exact fun pass hpass => absurd hpass not_mem_nil

theorem only_bought (products : Table Product Product.id) (events : List Event)
    (h : Throughout step Clean (start products) events) :
    Throughout step Serves (start products) events :=
  (h.keep (start_inv products) fun _ _ hs hclean => step_inv hs hclean).imp fun _ _ hs => step_serves hs.1 hs.2

end syncs

section shop

instance (s : Sys) (c productId : Int) : Decidable (Bought s c productId) :=
  inferInstanceAs (Decidable (∃ o ∈ s.orders.rows, o.status = .completed ∧ o.productId = productId ∧
    (o.id, c) ∈ s.served))

instance (s : Sys) (e : Event) : Decidable (Serves s e) :=
  inferInstanceAs (Decidable (∀ pass ∈ syncPasses s e, ∀ l ∈ pass.after.links, l ∉ pass.before.links →
    ∃ c ∈ s.clients.rows, c.email = l.1 ∧ Bought s c.id pass.productId))

def plans : Table Product Product.id :=
  (Table.empty.insert (fun id => ⟨id, 0, "basic", 1073741824, 30, 100, .all, [1], .active⟩) fun _ => rfl).insert
    (fun id => ⟨id, 0, "pro", 2147483648, 30, 300, .all, [2], .active⟩) fun _ => rfl

def basic : List Event := [.purchase 1, .provision 1 "alice" [] true, .finish 1 true, .renew 2 "alice"]

def sync : Event := .reconcileAllProducts fun _ _ _ _ => .done

theorem only_bought_upgraded :
    Throughout step Serves (start plans) (basic ++ [.applyPlan 2 true, .finish 2 true, sync]) := by
  refine only_bought _ _ ⟨trivial, ?_, ?_, trivial, ?_, ?_, ?_, trivial⟩
  · intro _ _
    unfold Unnamed
    decide +kernel
  · intro r hr _ c hc hemail
    revert r c
    decide +kernel
  · intro r hr _ happlied
    cases happlied
  · intro r hr _ c hc hemail
    revert r c
    decide +kernel
  · intro p hp o ho hpending
    revert p o
    decide +kernel

theorem cancelled_renewal_served : ¬ Throughout step Serves (start plans) (basic ++ [.applyPlan 2 false, sync]) := by
  intro h
  have hserves := h.2.2.2.2.2.1
  revert hserves
  decide +kernel

end shop

end OnlyBought

end QuiPanel
