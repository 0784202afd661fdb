import QuiPanel.Library.Table
import QuiPanel.Library.Labelled
import QuiPanel.Library.Outcome
import QuiPanel.Text

namespace QuiPanel

namespace Tickets

open Keyed Labelled List

section rows

structure Ticket where
  id : Int
  number : String
  userId : Int
  tenantId : Int
  categoryId : Int
  priority : String
  status : String
  assignedTo : Int
  assignedBy : Int
  assignedAt : Int
  slaDueAt : Int
  firstResponseAt : Int
  lastReplyAt : Int
  lastReplyBy : Int
  messageCount : Int
  reopenCount : Int
  closedAt : Int
  createdAt : Int
  deriving DecidableEq

structure TicketMessage where
  ticketId : Int
  userId : Int
  body : String
  isInternal : Bool
  deriving DecidableEq

structure TicketAuditLog where
  ticketId : Int
  actorId : Int
  actorName : String
  action : String
  oldValue : String
  newValue : String
  deriving DecidableEq

structure TicketCategory where
  id : Int
  tenantId : Int
  status : String

structure User where
  id : Int
  role : String
  tenantId : Int

structure Scope where
  tenantId : Int
  global : Bool

def Scope.allows (scope : Scope) (tenantId : Int) : Bool := scope.global || tenantId == scope.tenantId

def Scope.ownerTenantId (scope : Scope) : Int := if scope.global then 0 else scope.tenantId

inductive TicketError
  | notFound
  | invalid
  | category
  | reopenWindow
  | assignee
  | db
  deriving DecidableEq

def ticketMaxBodyLen : Nat := 20000

def ticketReopenDays : Int := 7

def reopenWindow : Int := ticketReopenDays * 24 * 60 * 60 * 1000

def isValidTicketPriority (p : String) : Bool := ["low", "normal", "high", "urgent"].contains p

def isValidTicketStatus (s : String) : Bool :=
  ["open", "pending_user", "pending_staff", "in_progress", "escalated", "solved", "closed"].contains s

def ticketStatusIsClosed (s : String) : Bool := s == "solved" || s == "closed"

def ticketSLAMinutes (priority : String) : Int :=
  if priority = "urgent" then 60
  else if priority = "high" then 360
  else if priority = "low" then 4320
  else 1440

def slaDueAt (priority : String) (createdAt : Int) : Int := createdAt + ticketSLAMinutes priority * 60 * 1000

def ticketNumber (year id : Int) : String :=
  let digits := toString id
  "TCK-" ++ toString year ++ "-" ++ String.ofList (List.replicate (6 - digits.length) '0') ++ digits

structure DB where
  tickets : Table Ticket (·.id)
  messages : List TicketMessage
  audits : List TicketAuditLog
  categories : List TicketCategory
  users : List User

def DB.update (db : DB) (id : Int) (f : Ticket → Ticket) (hf : ∀ t, (f t).id = t.id) : DB :=
  { db with tickets := db.tickets.modify (·.id = id) f hf }

def DB.get (db : DB) (id : Int) (scope : Scope) : Except TicketError Ticket :=
  match db.tickets.find id with
  | some t => if scope.allows t.tenantId then .ok t else .error .notFound
  | none => .error .notFound

def DB.getCategory (db : DB) (id : Int) (scope : Scope) : Except TicketError TicketCategory :=
  match db.categories.find? fun c => c.id = id ∧ scope.allows c.tenantId with
  | some c => .ok c
  | none => .error .category

def normalizeRole (role : String) : String :=
  let role := Text.toLower (Text.trimSpace role)
  if ["admin", "manager", "moderator", "reseller"].contains role then role else "member"

def DB.validateAssignee (db : DB) (fails : Bool) (assigneeId : Int) (ticket : Ticket) : Except TicketError Unit :=
  if assigneeId ≤ 0 then .ok ()
  else if fails then .error .assignee
  else match db.users.find? (·.id = assigneeId) with
  | none => .error .assignee
  | some u =>
    if u.tenantId ≠ ticket.tenantId then .error .assignee
    else if normalizeRole u.role = "admin" ∨ normalizeRole u.role = "manager" then .ok ()
    else .error .assignee

end rows

section calls

inductive Op
  | createTicket (userId : Int) (username subject body : String) (categoryId : Int) (priority : String)
  | addMessage (ticketId authorId : Int) (authorName body : String) (isInternal authorIsStaff : Bool)
  | assign (ticketId assigneeId actorId : Int) (actorName : String)
  | transfer (ticketId newCategoryId newAssignee actorId : Int) (actorName : String)
  | setStatus (ticketId : Int) (status : String) (actorId : Int) (actorName : String)
  | setPriority (ticketId : Int) (priority : String) (actorId : Int) (actorName : String)
  | reopen (ticketId actorId : Int) (actorName : String) (actorIsStaff : Bool)

structure Transfer where
  ticket : Ticket
  newCategoryId : Int
  newAssignee : Int
  actorId : Int
  actorName : String

def Transfer.moves (x : Transfer) : Bool := 0 < x.newCategoryId && x.newCategoryId != x.ticket.categoryId

def Transfer.reassigns (x : Transfer) : Bool := x.newAssignee != x.ticket.assignedTo

inductive Pending
  | create (userId : Int) (username body : String) (categoryId : Int) (priority : String) (tenantId : Int)
  | addMessage (ticket : Ticket) (authorId : Int) (authorName body : String) (isInternal authorIsStaff : Bool)
  | validate (ticket : Ticket) (assigneeId actorId : Int) (actorName : String)
  | assign (ticket : Ticket) (assigneeId actorId : Int) (actorName : String) (assignedAt : Int)
  | category (x : Transfer) (scope : Scope)
  | logCategory (x : Transfer)
  | assignee (x : Transfer)
  | logAssignee (x : Transfer) (assignedAt : Int)
  | transfer (x : Transfer) (assignedAt : Int)
  | setStatus (ticket : Ticket) (status : String) (actorId : Int) (actorName : String) (closedAt : Int)
  | setPriority (ticket : Ticket) (priority : String) (actorId : Int) (actorName : String)
  | reopen (ticket : Ticket) (actorId : Int) (actorName : String) (actorIsStaff : Bool) (askedAt : Int)
  | audit (row : TicketAuditLog)

inductive Effect
  | ticket (id : Int)
  | closing (id : Int)
  | message (ticketId : Int)
  | audit (row : TicketAuditLog)
  deriving DecidableEq

structure Choice where
  fails : Bool
  logged : Bool

structure Outcome where
  db : DB
  effects : List Effect
  next : Pending ⊕ Except TicketError Unit

def Outcome.failed (db : DB) (e : TicketError) : Outcome := ⟨db, [], .inr (.error e)⟩

def Outcome.on (db : DB) (p : Pending) : Outcome := ⟨db, [], .inl p⟩

def DB.log (db : DB) (c : Choice) (row : TicketAuditLog) : DB :=
  if c.logged then { db with audits := db.audits ++ [row] } else db

def logged (c : Choice) (row : TicketAuditLog) : List Effect := if c.logged then [.audit row] else []

def reading (db : DB) (c : Choice) (id : Int) (scope : Scope) (k : Ticket → Outcome) : Outcome :=
  if c.fails then .failed db .db
  else match db.get id scope with
  | .error e => .failed db e
  | .ok ticket => k ticket

def Transfer.afterCategory (x : Transfer) (db : DB) : Outcome :=
  if x.reassigns then .on db (.assignee x)
  else if x.moves then .on db (.transfer x 0)
  else ⟨db, [], .inr (.ok ())⟩

def begin (db : DB) (now : Int) (scope : Scope) (c : Choice) : Op → Outcome
  | .createTicket userId username subject body categoryId priority =>
    let body := Text.trimSpace body
    if userId ≤ 0 ∨ Text.trimSpace subject = "" ∨ body = "" then .failed db .invalid
    else if ticketMaxBodyLen < body.utf8ByteSize then .failed db .invalid
    else
      let priority := if isValidTicketPriority priority then priority else "normal"
      if c.fails then .failed db .category
      else match db.getCategory categoryId scope with
      | .error _ => .failed db .category
      | .ok cat =>
        if cat.status ≠ "active" then .failed db .category
        else .on db (.create userId username body categoryId priority scope.ownerTenantId)
  | .addMessage ticketId authorId authorName body isInternal authorIsStaff =>
    let body := Text.trimSpace body
    if body = "" ∨ ticketMaxBodyLen < body.utf8ByteSize then .failed db .invalid
    else reading db c ticketId scope fun ticket =>
      .on db (.addMessage ticket authorId authorName body (isInternal && authorIsStaff) authorIsStaff)
  | .assign ticketId assigneeId actorId actorName =>
    reading db c ticketId scope fun ticket => .on db (.validate ticket assigneeId actorId actorName)
  | .transfer ticketId newCategoryId newAssignee actorId actorName =>
    reading db c ticketId scope fun ticket =>
      let x : Transfer := ⟨ticket, newCategoryId, newAssignee, actorId, actorName⟩
      if x.moves then .on db (.category x scope) else x.afterCategory db
  | .setStatus ticketId status actorId actorName =>
    if isValidTicketStatus status then
      reading db c ticketId scope fun ticket => .on db (.setStatus ticket status actorId actorName now)
    else .failed db .invalid
  | .setPriority ticketId priority actorId actorName =>
    if isValidTicketPriority priority then
      reading db c ticketId scope fun ticket => .on db (.setPriority ticket priority actorId actorName)
    else .failed db .invalid
  | .reopen ticketId actorId actorName actorIsStaff =>
    reading db c ticketId scope fun ticket =>
      if ticketStatusIsClosed ticket.status then
        if !actorIsStaff && 0 < ticket.closedAt && ticket.closedAt + reopenWindow < now then
          .failed db .reopenWindow
        else .on db (.reopen ticket actorId actorName actorIsStaff now)
      else .failed db .invalid

def opened (year : Int → Int) (userId : Int) (categoryId : Int) (priority : String) (tenantId now id : Int) : Ticket where
  id
  number := ticketNumber (year now) id
  userId
  tenantId
  categoryId
  priority
  status := "open"
  assignedTo := 0
  assignedBy := 0
  assignedAt := 0
  slaDueAt := slaDueAt priority now
  firstResponseAt := 0
  lastReplyAt := now
  lastReplyBy := userId
  messageCount := 1
  reopenCount := 0
  closedAt := 0
  createdAt := now

def replied (ticket : Ticket) (authorId : Int) (isInternal authorIsStaff : Bool) (now : Int) (row : Ticket) : Ticket :=
  let counted := { row with messageCount := row.messageCount + 1 }
  if isInternal then counted
  else
    let answered := { counted with lastReplyAt := now, lastReplyBy := authorId }
    if ticketStatusIsClosed ticket.status then answered
    else if authorIsStaff then
      { answered with
        status := "pending_user"
        firstResponseAt := if ticket.firstResponseAt = 0 then now else row.firstResponseAt }
    else { answered with status := "pending_staff" }

def assigned (assigneeId actorId assignedAt : Int) (row : Ticket) : Ticket :=
  { row with assignedTo := assigneeId, assignedBy := actorId, assignedAt }

def Transfer.moved (x : Transfer) (assignedAt : Int) (row : Ticket) : Ticket :=
  let row := if x.moves then { row with categoryId := x.newCategoryId } else row
  if x.reassigns then assigned x.newAssignee x.actorId assignedAt row else row

def restated (status : String) (closedAt : Int) (row : Ticket) : Ticket :=
  if ticketStatusIsClosed status then { row with status, closedAt } else { row with status }

def reprioritised (ticket : Ticket) (priority : String) (row : Ticket) : Ticket :=
  { row with
    priority
    slaDueAt := if ticket.firstResponseAt = 0 then slaDueAt priority ticket.createdAt else row.slaDueAt }

def reopened (row : Ticket) : Ticket := { row with status := "open", closedAt := 0, reopenCount := row.reopenCount + 1 }

def statusAction (status : String) : String :=
  if status = "escalated" then "escalate"
  else if ticketStatusIsClosed status then "close"
  else "status"

theorem opened_id (year : Int → Int) (userId categoryId : Int) (priority : String) (tenantId now id : Int) :
    (opened year userId categoryId priority tenantId now id).id = id :=
  rfl

theorem assigned_id (assigneeId actorId assignedAt : Int) (row : Ticket) :
    (assigned assigneeId actorId assignedAt row).id = row.id :=
  rfl

theorem reprioritised_id (ticket : Ticket) (priority : String) (row : Ticket) :
    (reprioritised ticket priority row).id = row.id :=
  rfl

theorem reopened_id (row : Ticket) : (reopened row).id = row.id := rfl

theorem replied_id (ticket : Ticket) (authorId : Int) (isInternal authorIsStaff : Bool) (now : Int) (row : Ticket) :
    (replied ticket authorId isInternal authorIsStaff now row).id = row.id := by
  simp only [replied]
  split
  · rfl
  · split
    · rfl
    · split <;> rfl

theorem moved_id (x : Transfer) (assignedAt : Int) (row : Ticket) : (x.moved assignedAt row).id = row.id := by
  simp only [Transfer.moved]
  split <;> split <;> rfl

theorem restated_id (status : String) (closedAt : Int) (row : Ticket) : (restated status closedAt row).id = row.id := by
  rw [restated]
  split <;> rfl

def advance (year : Int → Int) (db : DB) (now : Int) (c : Choice) : Pending → Outcome
  | .create userId username body categoryId priority tenantId =>
    if c.fails then .failed db .db
    else
      let id := db.tickets.next
      let row : TicketAuditLog := ⟨id, userId, username, "created", "", ticketNumber (year now) id⟩
      let db := { db with
        tickets := db.tickets.insert (opened year userId categoryId priority tenantId now)
          (opened_id year userId categoryId priority tenantId now)
        messages := db.messages ++ [(⟨id, userId, body, false⟩ : TicketMessage)] }
      ⟨db.log c row, [.ticket id, .message id] ++ logged c row, .inr (.ok ())⟩
  | .addMessage ticket authorId authorName body isInternal authorIsStaff =>
    if c.fails then .failed db .db
    else
      let row : TicketAuditLog := ⟨ticket.id, authorId, authorName, if isInternal then "note" else "reply", "", ""⟩
      let db := { db with messages := db.messages ++ [(⟨ticket.id, authorId, body, isInternal⟩ : TicketMessage)] }
      let db := db.update ticket.id (replied ticket authorId isInternal authorIsStaff now)
        (replied_id ticket authorId isInternal authorIsStaff now)
      ⟨db.log c row, [.message ticket.id, .ticket ticket.id] ++ logged c row, .inr (.ok ())⟩
  | .validate ticket assigneeId actorId actorName =>
    match db.validateAssignee c.fails assigneeId ticket with
    | .error e => .failed db e
    | .ok () => .on db (.assign ticket assigneeId actorId actorName now)
  | .assign ticket assigneeId actorId actorName assignedAt =>
    if c.fails then .failed db .db
    else ⟨db.update ticket.id (assigned assigneeId actorId assignedAt) (assigned_id assigneeId actorId assignedAt),
      [.ticket ticket.id],
      .inl (.audit ⟨ticket.id, actorId, actorName, "assign", toString ticket.assignedTo, toString assigneeId⟩)⟩
  | .category x scope =>
    if c.fails then .failed db .category
    else match db.getCategory x.newCategoryId scope with
    | .error _ => .failed db .category
    | .ok _ => .on db (.logCategory x)
  | .logCategory x =>
    let row : TicketAuditLog :=
      ⟨x.ticket.id, x.actorId, x.actorName, "transfer", toString x.ticket.categoryId, toString x.newCategoryId⟩
    ⟨db.log c row, logged c row, (x.afterCategory db).next⟩
  | .assignee x =>
    match db.validateAssignee c.fails x.newAssignee x.ticket with
    | .error e => .failed db e
    | .ok () => .on db (.logAssignee x now)
  | .logAssignee x assignedAt =>
    let row : TicketAuditLog :=
      ⟨x.ticket.id, x.actorId, x.actorName, "assign", toString x.ticket.assignedTo, toString x.newAssignee⟩
    ⟨db.log c row, logged c row, .inl (.transfer x assignedAt)⟩
  | .transfer x assignedAt =>
    if c.fails then .failed db .db
    else ⟨db.update x.ticket.id (x.moved assignedAt) (moved_id x assignedAt), [.ticket x.ticket.id], .inr (.ok ())⟩
  | .setStatus ticket status actorId actorName closedAt =>
    if c.fails then .failed db .db
    else ⟨db.update ticket.id (restated status closedAt) (restated_id status closedAt),
      .ticket ticket.id :: if ticketStatusIsClosed status then [.closing ticket.id] else [],
      .inl (.audit ⟨ticket.id, actorId, actorName, statusAction status, ticket.status, status⟩)⟩
  | .setPriority ticket priority actorId actorName =>
    if c.fails then .failed db .db
    else ⟨db.update ticket.id (reprioritised ticket priority) (reprioritised_id ticket priority), [.ticket ticket.id],
      .inl (.audit ⟨ticket.id, actorId, actorName, "priority", ticket.priority, priority⟩)⟩
  | .reopen ticket actorId actorName _ _ =>
    if c.fails then .failed db .db
    else ⟨db.update ticket.id reopened reopened_id, [.ticket ticket.id],
      .inl (.audit ⟨ticket.id, actorId, actorName, "reopen", ticket.status, "open"⟩)⟩
  | .audit row => ⟨db.log c row, logged c row, .inr (.ok ())⟩

end calls

section runs

structure Flight where
  pending : Pending
  effects : List Effect

structure World where
  db : DB
  now : Int
  calls : Nat → Option Flight
  closings : Int → Int

inductive Act
  | call (i : Nat) (scope : Scope) (op : Op) (c : Choice)
  | go (i : Nat) (c : Choice)
  | tick (now : Int)
  | settle (categories : List TicketCategory) (users : List User)

def World.land (w : World) (i : Nat) (before : List Effect) (o : Outcome) : World where
  db := o.db
  now := w.now
  calls := Function.update w.calls i <| match o.next with
    | .inl p => some ⟨p, before ++ o.effects⟩
    | .inr _ => none
  closings id := if .closing id ∈ o.effects then w.now else w.closings id

inductive Step (year : Int → Int) (w : World) : Act → World → Prop
  | call {i : Nat} {scope : Scope} {op : Op} {c : Choice} (hfree : w.calls i = none) :
      Step year w (.call i scope op c) (w.land i [] (begin w.db w.now scope c op))
  | go {i : Nat} {c : Choice} {f : Flight} (hcall : w.calls i = some f) :
      Step year w (.go i c) (w.land i f.effects (advance year w.db w.now c f.pending))
  | tick {now : Int} (h : w.now ≤ now) : Step year w (.tick now) { w with now }
  | settle {categories : List TicketCategory} {users : List User} :
      Step year w (.settle categories users) { w with db := { w.db with categories, users } }

structure Quiet (w : World) : Prop where
  tickets : w.db.tickets.rows = []
  messages : w.db.messages = []
  calls : ∀ i, w.calls i = none
  clock : 0 < w.now
  closings : ∀ id, w.closings id ≤ w.now

structure Upright (w : World) : Prop where
  closed : ∀ t ∈ w.db.tickets.rows, 0 < t.closedAt ↔ ticketStatusIsClosed t.status = true
  counted : ∀ t ∈ w.db.tickets.rows, t.messageCount = (w.db.messages.countP fun m => m.ticketId = t.id : Nat)

def Reopens (w : World) (t : Ticket) : Pending → Prop
  | .setStatus _ _ _ _ _ => True
  | .reopen _ _ _ actorIsStaff askedAt => actorIsStaff = false → askedAt ≤ w.closings t.id + reopenWindow
  | _ => False

def Refused (year : Int → Int) (w : World) (i : Nat) (c : Choice) (f : Flight) : Prop :=
  w.calls i = some f ∧ ∃ e, (advance year w.db w.now c f.pending).next = .inr (.error e)

structure Orderly (year : Int → Int) (w : World) (a : Act) (w' : World) : Prop where
  kept : ∀ t ∈ w.db.tickets.rows, ∃ t' ∈ w'.db.tickets.rows, t'.id = t.id
  leaves : ∀ t ∈ w.db.tickets.rows, ∀ t' ∈ w'.db.tickets.rows, t'.id = t.id →
    ticketStatusIsClosed t.status = true → ticketStatusIsClosed t'.status = false →
      ∃ i c f, a = .go i c ∧ w.calls i = some f ∧ Reopens w t f.pending
  response : ∀ t ∈ w.db.tickets.rows, ∀ t' ∈ w'.db.tickets.rows, t'.id = t.id → t.firstResponseAt ≠ 0 →
    t'.firstResponseAt = t.firstResponseAt
  refusedCall : ∀ i scope op c e, a = .call i scope op c → (begin w.db w.now scope c op).next = .inr (.error e) →
    w'.db = w.db
  refused : ∀ i c f, a = .go i c → Refused year w i c f → w'.db = w.db ∧ f.effects = []

end runs

section conditions

def Fair (w : World) (c : Choice) : Pending → Prop
  | .addMessage ticket _ _ _ isInternal authorIsStaff =>
    c.fails = false → isInternal = false → ticketStatusIsClosed ticket.status = false →
      ∀ t ∈ w.db.tickets.rows, t.id = ticket.id → ticketStatusIsClosed t.status = false ∧
        (authorIsStaff = true → ticket.firstResponseAt = 0 → t.firstResponseAt = 0)
  | .setStatus ticket status _ _ _ =>
    c.fails = false → ticketStatusIsClosed status = false →
      ∀ t ∈ w.db.tickets.rows, t.id = ticket.id → ticketStatusIsClosed t.status = false
  | .assignee x => x.moves = true → w.db.validateAssignee c.fails x.newAssignee x.ticket = .ok ()
  | .transfer _ _ => c.fails = false
  | _ => True

def Sound (w : World) : Act → Prop
  | .go i c => ∀ f, w.calls i = some f → Fair w c f.pending
  | _ => True

end conditions

section effects

variable {year : Int → Int} {db : DB} {now : Int} {scope : Scope} {c : Choice} {op : Op} {p : Pending} {t t' : Ticket}

theorem reading_db {id : Int} {k : Ticket → Outcome} (hk : ∀ t, (k t).db = db ∧ (k t).effects = []) :
    (reading db c id scope k).db = db ∧ (reading db c id scope k).effects = [] := by
  rw [reading]
  split
  · exact ⟨rfl, rfl⟩
  · split
    · exact ⟨rfl, rfl⟩
    · exact hk _

theorem afterCategory_db (x : Transfer) (db : DB) : (x.afterCategory db).db = db ∧ (x.afterCategory db).effects = [] := by
  rw [Transfer.afterCategory]
  split
  · exact ⟨rfl, rfl⟩
  · split <;> exact ⟨rfl, rfl⟩

theorem afterCategory_next (x : Transfer) (db : DB) : (x.afterCategory db).next = .inl (.assignee x) ∨
    (x.afterCategory db).next = .inl (.transfer x 0) ∨ (x.afterCategory db).next = .inr (.ok ()) := by
  rw [Transfer.afterCategory]
  split
  · exact .inl rfl
  · split
    · exact .inr (.inl rfl)
    · exact .inr (.inr rfl)

theorem begin_quiet (op : Op) : (begin db now scope c op).db = db ∧ (begin db now scope c op).effects = [] := by
  cases op with
  | createTicket userId username subject body categoryId priority =>
    simp only [begin]
    split
    · exact ⟨rfl, rfl⟩
    · split
      · exact ⟨rfl, rfl⟩
      · split
        · exact ⟨rfl, rfl⟩
        · split
          · exact ⟨rfl, rfl⟩
          · split <;> exact ⟨rfl, rfl⟩
  | addMessage ticketId authorId authorName body isInternal authorIsStaff =>
    simp only [begin]
    split
    · exact ⟨rfl, rfl⟩
    · exact reading_db fun _ => ⟨rfl, rfl⟩
  | assign ticketId assigneeId actorId actorName => exact reading_db fun _ => ⟨rfl, rfl⟩
  | transfer ticketId newCategoryId newAssignee actorId actorName =>
    refine reading_db fun t => ?_
    dsimp only
    split
    · exact ⟨rfl, rfl⟩
    · exact afterCategory_db _ db
  | setStatus ticketId status actorId actorName =>
    simp only [begin]
    split
    · exact reading_db fun _ => ⟨rfl, rfl⟩
    · exact ⟨rfl, rfl⟩
  | setPriority ticketId priority actorId actorName =>
    simp only [begin]
    split
    · exact reading_db fun _ => ⟨rfl, rfl⟩
    · exact ⟨rfl, rfl⟩
  | reopen ticketId actorId actorName actorIsStaff =>
    refine reading_db fun t => ?_
    split
    · split <;> exact ⟨rfl, rfl⟩
    · exact ⟨rfl, rfl⟩

@[simp] theorem log_tickets (row : TicketAuditLog) : (db.log c row).tickets = db.tickets := by
  rw [DB.log]
  split <;> rfl

@[simp] theorem log_messages (row : TicketAuditLog) : (db.log c row).messages = db.messages := by
  rw [DB.log]
  split <;> rfl

def Pending.edit (now : Int) : Pending → Option (Int × (Ticket → Ticket))
  | .addMessage ticket authorId _ _ isInternal authorIsStaff =>
    some (ticket.id, replied ticket authorId isInternal authorIsStaff now)
  | .assign ticket assigneeId actorId _ assignedAt =>
    some (ticket.id, assigned assigneeId actorId assignedAt)
  | .transfer x assignedAt => some (x.ticket.id, x.moved assignedAt)
  | .setStatus ticket status _ _ closedAt => some (ticket.id, restated status closedAt)
  | .setPriority ticket priority _ _ => some (ticket.id, reprioritised ticket priority)
  | .reopen ticket _ _ _ _ => some (ticket.id, reopened)
  | _ => none

inductive Retabled (year : Int → Int) (db : DB) (now : Int) (c : Choice) (p : Pending) :
    Table Ticket (·.id) → Prop
  | same (hedit : c.fails = false → p.edit now = none) : Retabled year db now c p db.tickets
  | edited {id : Int} {f : Ticket → Ticket} (hf : ∀ t, (f t).id = t.id) (hedit : p.edit now = some (id, f))
      (hruns : c.fails = false) : Retabled year db now c p (db.tickets.modify (·.id = id) f hf)
  | opened {userId categoryId tenantId : Int} {username body priority : String}
      (hcreate : p = .create userId username body categoryId priority tenantId) (hruns : c.fails = false) :
      Retabled year db now c p (db.tickets.insert (opened year userId categoryId priority tenantId now)
        (opened_id year userId categoryId priority tenantId now))

theorem retabled_failed (h : c.fails = true) : Retabled year db now c p db.tickets :=
  .same fun hok => absurd (h.symm.trans hok) (by decide)

theorem advance_retabled : Retabled year db now c p (advance year db now c p).db.tickets := by
  cases p with
  | create userId username body categoryId priority tenantId =>
    simp only [advance]
    split
    · exact retabled_failed ‹_›
    · rw [log_tickets]
      exact .opened rfl (Bool.eq_false_iff.mpr ‹_›)
  | addMessage ticket authorId authorName body isInternal authorIsStaff =>
    simp only [advance]
    split
    · exact retabled_failed ‹_›
    · rw [log_tickets]
      exact .edited (replied_id ticket authorId isInternal authorIsStaff now) rfl (Bool.eq_false_iff.mpr ‹_›)
  | validate ticket assigneeId actorId actorName =>
    simp only [advance]
    split <;> exact .same fun _ => rfl
  | category x scope =>
    simp only [advance]
    split
    · exact .same fun _ => rfl
    · split <;> exact .same fun _ => rfl
  | logCategory x =>
    simp only [advance, log_tickets]
    exact .same fun _ => rfl
  | assignee x =>
    simp only [advance]
    split <;> exact .same fun _ => rfl
  | logAssignee x assignedAt =>
    simp only [advance, log_tickets]
    exact .same fun _ => rfl
  | audit row =>
    simp only [advance, log_tickets]
    exact .same fun _ => rfl
  | assign ticket assigneeId actorId actorName assignedAt =>
    simp only [advance]
    split
    · exact retabled_failed ‹_›
    · exact .edited (assigned_id assigneeId actorId assignedAt) rfl (Bool.eq_false_iff.mpr ‹_›)
  | transfer x assignedAt =>
    simp only [advance]
    split
    · exact retabled_failed ‹_›
    · exact .edited (moved_id x assignedAt) rfl (Bool.eq_false_iff.mpr ‹_›)
  | setStatus ticket status actorId actorName closedAt =>
    simp only [advance]
    split
    · exact retabled_failed ‹_›
    · exact .edited (restated_id status closedAt) rfl (Bool.eq_false_iff.mpr ‹_›)
  | setPriority ticket priority actorId actorName =>
    simp only [advance]
    split
    · exact retabled_failed ‹_›
    · exact .edited (reprioritised_id ticket priority) rfl (Bool.eq_false_iff.mpr ‹_›)
  | reopen ticket actorId actorName actorIsStaff askedAt =>
    simp only [advance]
    split
    · exact retabled_failed ‹_›
    · exact .edited reopened_id rfl (Bool.eq_false_iff.mpr ‹_›)

inductive Rewritten (year : Int → Int) (db : DB) (now : Int) (c : Choice) (p : Pending) (t' : Ticket) : Prop
  | kept (h : t' ∈ db.tickets.rows) (hother : ∀ id f, p.edit now = some (id, f) → c.fails = false → t'.id ≠ id)
  | edited {f : Ticket → Ticket} {t : Ticket} (hf : ∀ t, (f t).id = t.id) (hedit : p.edit now = some (t.id, f))
      (hruns : c.fails = false) (ht : t ∈ db.tickets.rows) (heq : t' = f t)
  | opened {userId categoryId tenantId : Int} {username body priority : String}
      (hcreate : p = .create userId username body categoryId priority tenantId) (hruns : c.fails = false)
      (heq : t' = opened year userId categoryId priority tenantId now db.tickets.next)

variable {table : Table Ticket (·.id)}

theorem Retabled.rewritten (h : Retabled year db now c p table) (ht' : t' ∈ table.rows) :
    Rewritten year db now c p t' := by
  cases h with
  | same hedit =>
    refine .kept ht' fun id f hsome hruns => ?_
    rw [hedit hruns] at hsome
    cases hsome
  | @edited id f hf hedit hruns =>
    rw [Table.mem_modify] at ht'
    obtain ⟨t, ht, heq⟩ := ht'
    split at heq
    case isTrue hid =>
      have hid : t.id = id := of_decide_eq_true hid
      exact .edited hf (hid ▸ hedit) hruns ht heq.symm
    case isFalse hid =>
      refine .kept (heq ▸ ht) fun id' f' hedit' _ => ?_
      obtain ⟨rfl, -⟩ := Prod.mk.inj (Option.some.inj (hedit.symm.trans hedit'))
      exact fun he => hid (decide_eq_true (heq ▸ he))
  | opened hcreate hruns =>
    rw [Table.mem_insert] at ht'
    rcases ht' with hold | hnew
    · exact .kept hold fun _ _ hedit => by rw [hcreate] at hedit; cases hedit
    · exact .opened hcreate hruns hnew

theorem Retabled.kept (h : Retabled year db now c p table) (ht : t ∈ db.tickets.rows) :
    ∃ t' ∈ table.rows, t'.id = t.id := by
  cases h with
  | same => exact ⟨t, ht, rfl⟩
  | @edited id f hf =>
    refine ⟨if t.id = id then f t else t, ?_, ?_⟩
    · exact Table.mem_modify.mpr ⟨t, ht, by simp only [decide_eq_true_eq]⟩
    · split
      · exact hf t
      · rfl
  | opened => exact ⟨t, Table.mem_insert.mpr (.inl ht), rfl⟩

theorem Retabled.next (h : Retabled year db now c p table) :
    db.tickets.next ≤ table.next := by
  cases h with
  | same => exact Int.le_refl _
  | edited => exact Int.le_refl _
  | opened => exact Int.le_of_lt (Int.lt_succ _)

def Pending.posts (db : DB) : Pending → List TicketMessage
  | .create userId _ body _ _ _ => [⟨db.tickets.next, userId, body, false⟩]
  | .addMessage ticket authorId _ body isInternal _ => [⟨ticket.id, authorId, body, isInternal⟩]
  | _ => []

theorem advance_messages : (advance year db now c p).db.messages =
    db.messages ++ if c.fails then [] else p.posts db := by
  cases p with
  | create userId username body categoryId priority tenantId =>
    simp only [advance, Pending.posts]
    split
    · exact (append_nil _).symm
    · rw [log_messages]
  | addMessage ticket authorId authorName body isInternal authorIsStaff =>
    simp only [advance, Pending.posts]
    split
    · exact (append_nil _).symm
    · rw [log_messages]
      rfl
  | category x scope =>
    simp only [advance, Pending.posts, ite_self, append_nil]
    split
    · rfl
    · split <;> rfl
  | logCategory x => simp only [advance, Pending.posts, ite_self, append_nil, log_messages]
  | logAssignee x assignedAt => simp only [advance, Pending.posts, ite_self, append_nil, log_messages]
  | audit row => simp only [advance, Pending.posts, ite_self, append_nil, log_messages]
  | _ =>
    simp only [advance, Pending.posts, ite_self, append_nil]
    split <;> rfl

theorem replied_spec (ticket : Ticket) (authorId : Int) (isInternal authorIsStaff : Bool) (now : Int) (t : Ticket) :
    (replied ticket authorId isInternal authorIsStaff now t).messageCount = t.messageCount + 1 ∧
    (replied ticket authorId isInternal authorIsStaff now t).closedAt = t.closedAt ∧
    ((replied ticket authorId isInternal authorIsStaff now t).status = t.status ∧
        (replied ticket authorId isInternal authorIsStaff now t).firstResponseAt = t.firstResponseAt ∨
      isInternal = false ∧ ticketStatusIsClosed ticket.status = false ∧
        ticketStatusIsClosed (replied ticket authorId isInternal authorIsStaff now t).status = false ∧
        (authorIsStaff = true ∧ ticket.firstResponseAt = 0 ∨
          (replied ticket authorId isInternal authorIsStaff now t).firstResponseAt = t.firstResponseAt)) := by
  simp only [replied]
  cases isInternal with
  | true => exact ⟨rfl, rfl, .inl ⟨rfl, rfl⟩⟩
  | false =>
    cases hclosed : ticketStatusIsClosed ticket.status with
    | true => exact ⟨rfl, rfl, .inl ⟨rfl, rfl⟩⟩
    | false =>
      cases authorIsStaff with
      | true =>
        refine ⟨rfl, rfl, .inr ⟨rfl, rfl, (by decide : ticketStatusIsClosed "pending_user" = false), ?_⟩⟩
        by_cases hfirst : ticket.firstResponseAt = 0
        · exact .inl ⟨rfl, hfirst⟩
        · exact .inr (if_neg hfirst)
      | false =>
        exact ⟨rfl, rfl, .inr ⟨rfl, rfl, (by decide : ticketStatusIsClosed "pending_staff" = false), .inr rfl⟩⟩

inductive Edit (now : Int) (p : Pending) (id : Int) (f : Ticket → Ticket) (t : Ticket) : Prop
  | reply {ticket : Ticket} {authorId : Int} {authorName body : String} {isInternal authorIsStaff : Bool}
      (hp : p = .addMessage ticket authorId authorName body isInternal authorIsStaff) (hid : ticket.id = id)
      (hf : f = replied ticket authorId isInternal authorIsStaff now)
  | status {ticket : Ticket} {status actorName : String} {actorId closedAt : Int}
      (hp : p = .setStatus ticket status actorId actorName closedAt) (hid : ticket.id = id)
      (hf : f = restated status closedAt)
  | reopen {ticket : Ticket} {actorId askedAt : Int} {actorName : String} {actorIsStaff : Bool}
      (hp : p = .reopen ticket actorId actorName actorIsStaff askedAt) (hid : ticket.id = id) (hf : f = reopened)
  | other (hposts : ∀ db, p.posts db = []) (hstatus : (f t).status = t.status) (hclosedAt : (f t).closedAt = t.closedAt)
      (hresponse : (f t).firstResponseAt = t.firstResponseAt) (hcount : (f t).messageCount = t.messageCount)

theorem moved_fields (x : Transfer) (assignedAt : Int) (t : Ticket) :
    (x.moved assignedAt t).status = t.status ∧ (x.moved assignedAt t).closedAt = t.closedAt ∧
    (x.moved assignedAt t).firstResponseAt = t.firstResponseAt ∧
    (x.moved assignedAt t).messageCount = t.messageCount := by
  simp only [Transfer.moved]
  split <;> split <;> exact ⟨rfl, rfl, rfl, rfl⟩

theorem edit_cases {id : Int} {f : Ticket → Ticket} (h : p.edit now = some (id, f)) (t : Ticket) :
    Edit now p id f t := by
  cases p with
  | addMessage ticket authorId authorName body isInternal authorIsStaff =>
    obtain ⟨hid, hf⟩ := Prod.mk.inj (Option.some.inj h)
    exact .reply rfl hid hf.symm
  | setStatus ticket status actorId actorName closedAt =>
    obtain ⟨hid, hf⟩ := Prod.mk.inj (Option.some.inj h)
    exact .status rfl hid hf.symm
  | reopen ticket actorId actorName actorIsStaff askedAt =>
    obtain ⟨hid, hf⟩ := Prod.mk.inj (Option.some.inj h)
    exact .reopen rfl hid hf.symm
  | assign ticket assigneeId actorId actorName assignedAt =>
    obtain ⟨-, rfl⟩ := Prod.mk.inj (Option.some.inj h)
    exact .other (fun _ => rfl) rfl rfl rfl rfl
  | transfer x assignedAt =>
    obtain ⟨-, rfl⟩ := Prod.mk.inj (Option.some.inj h)
    obtain ⟨hstatus, hclosedAt, hresponse, hcount⟩ := moved_fields x assignedAt t
    exact .other (fun _ => rfl) hstatus hclosedAt hresponse hcount
  | setPriority ticket priority actorId actorName =>
    obtain ⟨-, rfl⟩ := Prod.mk.inj (Option.some.inj h)
    exact .other (fun _ => rfl) rfl rfl rfl rfl
  | _ => cases h

end effects

section invariant

variable {year : Int → Int} {w w' : World} {c : Choice} {p : Pending} {f : Flight} {t : Ticket} {a : Act}

def Flying (w : World) (f : Flight) : Prop :=
  match f.pending with
  | .addMessage ticket _ _ _ _ _ => ticket.id < w.db.tickets.next ∧ f.effects = []
  | .setStatus _ _ _ _ closedAt => 0 < closedAt ∧ closedAt ≤ w.now ∧ f.effects = []
  | .reopen ticket _ _ actorIsStaff askedAt =>
    (actorIsStaff = false → askedAt ≤ w.closings ticket.id + reopenWindow) ∧ f.effects = []
  | .category x _ => x.moves = true ∧ f.effects = []
  | .logCategory x => x.moves = true
  | .assignee x => x.moves = false → f.effects = []
  | .logAssignee _ _ => True
  | .transfer _ _ => True
  | .audit _ => True
  | _ => f.effects = []

structure Later (w w' : World) : Prop where
  clock : w.now ≤ w'.now
  next : w.db.tickets.next ≤ w'.db.tickets.next
  closings : ∀ id, w.closings id ≤ w'.closings id

theorem Flying.later (h : Flying w f) (hlater : Later w w') : Flying w' f := by
  obtain ⟨p, effects⟩ := f
  cases p with
  | addMessage ticket authorId authorName body isInternal authorIsStaff =>
    exact ⟨Int.lt_of_lt_of_le h.1 hlater.next, h.2⟩
  | setStatus ticket status actorId actorName closedAt =>
    exact ⟨h.1, Int.le_trans h.2.1 hlater.clock, h.2.2⟩
  | reopen ticket actorId actorName actorIsStaff askedAt =>
    refine ⟨fun hstaff => ?_, h.2⟩
    have hwindow := h.1 hstaff
    have hclosing := hlater.closings ticket.id
    omega
  | _ => exact h

structure Sane (w : World) : Prop where
  upright : Upright w
  clock : 0 < w.now
  named : ∀ m ∈ w.db.messages, m.ticketId < w.db.tickets.next
  stamped : ∀ t ∈ w.db.tickets.rows, ticketStatusIsClosed t.status = true → t.closedAt ≤ w.closings t.id
  past : ∀ id, w.closings id ≤ w.now
  flights : ∀ i f, w.calls i = some f → Flying w f

def World.after (year : Int → Int) (w : World) (i : Nat) (c : Choice) (f : Flight) : World :=
  w.land i f.effects (advance year w.db w.now c f.pending)

variable {before : List Effect} {o : Outcome} {scope : Scope}

theorem land_later {i : Nat} (hpast : ∀ id, w.closings id ≤ w.now)
    (hnext : w.db.tickets.next ≤ o.db.tickets.next) : Later w (w.land i before o) := by
  refine ⟨Int.le_refl _, hnext, fun id => ?_⟩
  simp only [World.land]
  split
  · exact hpast id
  · exact Int.le_refl _

theorem land_calls {i j : Nat} {g : Flight}
    (h : (w.land i before o).calls j = some g) :
    (j = i ∧ ∃ p, o.next = .inl p ∧ g = ⟨p, before ++ o.effects⟩) ∨ (j ≠ i ∧ w.calls j = some g) := by
  by_cases hj : j = i
  · subst hj
    simp only [World.land, Function.update_self] at h
    cases hnext : o.next with
    | inl p =>
      rw [hnext] at h
      exact .inl ⟨rfl, p, rfl, (Option.some.inj h).symm⟩
    | inr r =>
      rw [hnext] at h
      cases h
  · simp only [World.land, Function.update_of_ne hj] at h
    exact .inr ⟨hj, h⟩

structure Edited (w : World) (p : Pending) (t t' : Ticket) : Prop where
  closed : 0 < t'.closedAt ↔ ticketStatusIsClosed t'.status = true
  leaves : ticketStatusIsClosed t.status = true → ticketStatusIsClosed t'.status = false → Reopens w t p
  response : t.firstResponseAt ≠ 0 → t'.firstResponseAt = t.firstResponseAt
  counted : t'.messageCount = t.messageCount + (p.posts w.db).countP fun m => m.ticketId = t.id

variable {effects : List Effect}

theorem edit_edited {g : Ticket → Ticket} (hsane : Sane w) (hflying : Flying w ⟨p, effects⟩)
    (hfair : Fair w c p) (hruns : c.fails = false) (ht : t ∈ w.db.tickets.rows)
    (hedit : p.edit w.now = some (t.id, g)) : Edited w p t (g t) := by
  have hclosed := hsane.upright.closed t ht
  cases edit_cases hedit t with
  | @reply ticket authorId authorName body isInternal authorIsStaff hp hid hf =>
    subst hp
    subst hf
    obtain ⟨hcount, hclosedAt, hrest⟩ := replied_spec ticket authorId isInternal authorIsStaff w.now t
    have hposts : ((Pending.addMessage ticket authorId authorName body isInternal authorIsStaff).posts w.db).countP
        (fun m => m.ticketId = t.id) = 1 := by
      simp [Pending.posts, hid]
    rcases hrest with ⟨hstatus, hfirst⟩ | ⟨hpublic, hopen, hstatus, hfirst⟩
    · refine ⟨by rw [hclosedAt, hstatus, hclosed], fun hshut hleft => ?_, fun _ => hfirst, by rw [hcount, hposts]; rfl⟩
      rw [hstatus, hshut] at hleft
      cases hleft
    · obtain ⟨hrow, hsecond⟩ := hfair hruns hpublic hopen t ht hid.symm
      refine ⟨?_, fun hshut => ?_, fun hset => ?_, by rw [hcount, hposts]; rfl⟩
      · rw [hclosedAt, hclosed, hrow, hstatus]
      · rw [hrow] at hshut
        cases hshut
      · rcases hfirst with ⟨hstaff, hzero⟩ | hfirst
        · exact absurd (hsecond hstaff hzero) hset
        · exact hfirst
  | @status ticket status actorName actorId closedAt hp hid hf =>
    subst hp
    subst hf
    have hstamp : 0 < closedAt := hflying.1
    have hcount : (restated status closedAt t).messageCount = t.messageCount := by
      rw [restated]
      split <;> rfl
    have hfirst : (restated status closedAt t).firstResponseAt = t.firstResponseAt := by
      rw [restated]
      split <;> rfl
    refine ⟨?_, fun _ _ => trivial, fun _ => hfirst, by rw [hcount]; exact (Int.add_zero _).symm⟩
    cases hnew : ticketStatusIsClosed status with
    | true =>
      rw [restated, if_pos hnew]
      exact iff_of_true hstamp hnew
    | false =>
      rw [restated, if_neg (Bool.eq_false_iff.mp hnew), hclosed, hfair hruns hnew t ht hid.symm, hnew]
  | @reopen ticket actorId askedAt actorName actorIsStaff hp hid hf =>
    subst hp
    subst hf
    refine ⟨iff_of_false (Int.lt_irrefl 0) (by decide : ¬ticketStatusIsClosed "open" = true), fun _ _ => ?_,
      fun _ => rfl, (Int.add_zero _).symm⟩
    rw [Reopens, ← hid]
    exact hflying.1
  | other hposts hstatus hclosedAt hresponse hcount =>
    refine ⟨by rw [hclosedAt, hstatus, hclosed], fun hshut hleft => ?_, fun _ => hresponse, ?_⟩
    · rw [hstatus, hshut] at hleft
      cases hleft
    · rw [hcount, hposts]
      exact (Int.add_zero _).symm

theorem posts_other (hflying : Flying w ⟨p, effects⟩) (hruns : c.fails = false)
    (ht : t ∈ w.db.tickets.rows) (hother : ∀ id f, p.edit w.now = some (id, f) → c.fails = false → t.id ≠ id) :
    (p.posts w.db).countP (fun m => m.ticketId = t.id) = 0 := by
  cases p with
  | create userId username body categoryId priority tenantId =>
    have hbelow := w.db.tickets.below t ht
    simp only [Pending.posts, countP_singleton]
    rw [if_neg (by simp only [decide_eq_true_eq]; omega)]
  | addMessage ticket authorId authorName body isInternal authorIsStaff =>
    have hne := hother _ _ rfl hruns
    simp only [Pending.posts, countP_singleton]
    rw [if_neg (by simpa using fun he => hne he.symm)]
  | _ => rfl

theorem posts_named (hflying : Flying w ⟨p, effects⟩) (hruns : c.fails = false) :
    ∀ m ∈ p.posts w.db, m.ticketId < (advance year w.db w.now c p).db.tickets.next := by
  have hnext := (@advance_retabled year w.db w.now c p).next
  cases p with
  | create userId username body categoryId priority tenantId =>
    have hgrown : (advance year w.db w.now c (.create userId username body categoryId priority tenantId)).db.tickets.next =
        w.db.tickets.next + 1 := by
      simp only [advance, hruns, Bool.false_eq_true, if_false, log_tickets]
      rfl
    rw [hgrown]
    intro m hm
    rw [mem_singleton.mp hm]
    exact Int.lt_succ _
  | addMessage ticket authorId authorName body isInternal authorIsStaff =>
    intro m hm
    rw [mem_singleton.mp hm]
    exact Int.lt_of_lt_of_le hflying.1 hnext
  | _ => exact fun m hm => absurd hm not_mem_nil

theorem advance_edited {t' : Ticket} (hsane : Sane w) (hflying : Flying w ⟨p, effects⟩)
    (hfair : Fair w c p) (ht' : t' ∈ (advance year w.db w.now c p).db.tickets.rows) :
    (∃ t ∈ w.db.tickets.rows, t'.id = t.id ∧
      (0 < t'.closedAt ↔ ticketStatusIsClosed t'.status = true) ∧
      (ticketStatusIsClosed t.status = true → ticketStatusIsClosed t'.status = false → Reopens w t p) ∧
      (t.firstResponseAt ≠ 0 → t'.firstResponseAt = t.firstResponseAt)) ∨ t'.id = w.db.tickets.next ∧
        ticketStatusIsClosed t'.status = false ∧ t'.closedAt = 0 := by
  cases advance_retabled.rewritten ht' with
  | kept hold hother =>
    refine .inl ⟨t', hold, rfl, hsane.upright.closed t' hold, fun hshut hleft => ?_, fun _ => rfl⟩
    rw [hshut] at hleft
    cases hleft
  | @edited g t hg hedit hruns ht heq =>
    obtain ⟨hclosed, hleaves, hresponse, -⟩ := edit_edited hsane hflying hfair hruns ht hedit
    subst heq
    exact .inl ⟨t, ht, hg t, hclosed, hleaves, hresponse⟩
  | opened hcreate hruns heq =>
    subst heq
    exact .inr ⟨rfl, (by decide : ticketStatusIsClosed "open" = false), rfl⟩

theorem advance_counted {t' : Ticket} (hsane : Sane w) (hflying : Flying w ⟨p, effects⟩)
    (hfair : Fair w c p) (ht' : t' ∈ (advance year w.db w.now c p).db.tickets.rows) :
    t'.messageCount = ((advance year w.db w.now c p).db.messages.countP fun m => m.ticketId = t'.id : Nat) := by
  rw [advance_messages, countP_append, Int.natCast_add]
  cases advance_retabled.rewritten ht' with
  | kept hold hother =>
    have hposts : (if c.fails then [] else p.posts w.db).countP (fun m => m.ticketId = t'.id) = 0 := by
      split
      · rfl
      · exact posts_other hflying (Bool.eq_false_iff.mpr ‹_›) hold hother
    rw [hposts, hsane.upright.counted t' hold]
    exact (Int.add_zero _).symm
  | @edited g t hg hedit hruns ht heq =>
    subst heq
    rw [(edit_edited hsane hflying hfair hruns ht hedit).counted, hsane.upright.counted t ht, hruns, hg t]
    rfl
  | opened hcreate hruns heq =>
    subst heq
    subst hcreate
    have hold : w.db.messages.countP (fun m => m.ticketId = w.db.tickets.next) = 0 := by
      rw [countP_eq_zero]
      intro m hm
      have hbelow := hsane.named m hm
      simp only [decide_eq_true_eq]
      omega
    rw [opened_id, hold, hruns]
    simp [Pending.posts, opened]

theorem mem_get {id : Int} (h : w.db.get id scope = .ok t) : t ∈ w.db.tickets.rows := by
  rw [DB.get] at h
  split at h
  · split at h
    · cases h
      exact (Table.mem_of_find ‹_›).1
    · cases h
  · cases h

theorem reading_next {id : Int} {k : Ticket → Outcome}
    (h : (reading w.db c id scope k).next = .inl p) : ∃ t ∈ w.db.tickets.rows, (k t).next = .inl p := by
  rw [reading] at h
  split at h
  · cases h
  · split at h
    · cases h
    · exact ⟨_, mem_get ‹_›, h⟩

theorem afterCategory_flying {x : Transfer} (hmoves : x.moves = false → effects = [])
    (h : (x.afterCategory w.db).next = .inl p) : Flying w ⟨p, effects⟩ := by
  rw [Transfer.afterCategory] at h
  split at h
  · cases h
    exact hmoves
  · split at h
    · cases h
      trivial
    · cases h

theorem begin_flying {op : Op} (hsane : Sane w) (h : (begin w.db w.now scope c op).next = .inl p) :
    Flying w ⟨p, []⟩ := by
  cases op with
  | createTicket userId username subject body categoryId priority =>
    simp only [begin] at h
    split at h
    · cases h
    · split at h
      · cases h
      · split at h
        · cases h
        · split at h
          · cases h
          · split at h
            · cases h
            · cases h
              rfl
  | addMessage ticketId authorId authorName body isInternal authorIsStaff =>
    simp only [begin] at h
    split at h
    · cases h
    · obtain ⟨t, ht, hnext⟩ := reading_next h
      cases hnext
      exact ⟨w.db.tickets.below t ht, rfl⟩
  | assign ticketId assigneeId actorId actorName =>
    obtain ⟨t, -, hnext⟩ := reading_next h
    cases hnext
    rfl
  | transfer ticketId newCategoryId newAssignee actorId actorName =>
    obtain ⟨t, -, hnext⟩ := reading_next h
    dsimp only at hnext
    split at hnext
    · cases hnext
      exact ⟨‹_›, rfl⟩
    · exact afterCategory_flying (fun _ => rfl) hnext
  | setStatus ticketId status actorId actorName =>
    simp only [begin] at h
    split at h
    · obtain ⟨t, -, hnext⟩ := reading_next h
      cases hnext
      exact ⟨hsane.clock, Int.le_refl _, rfl⟩
    · cases h
  | setPriority ticketId priority actorId actorName =>
    simp only [begin] at h
    split at h
    · obtain ⟨t, -, hnext⟩ := reading_next h
      cases hnext
      rfl
    · cases h
  | reopen ticketId actorId actorName actorIsStaff =>
    obtain ⟨t, ht, hnext⟩ := reading_next h
    split at hnext
    · rename_i hshut
      split at hnext
      · cases hnext
      · rename_i hwindow
        cases hnext
        refine ⟨fun hstaff => ?_, rfl⟩
        have hclosedAt := (hsane.upright.closed t ht).mpr hshut
        have hstamp := hsane.stamped t ht hshut
        have hwithin : ¬t.closedAt + reopenWindow < w.now := by
          simpa [hstaff, hclosedAt] using hwindow
        omega
    · cases hnext

theorem advance_flying {q : Pending} (hflying : Flying w ⟨p, effects⟩)
    (h : (advance year w.db w.now c p).next = .inl q) :
    Flying w ⟨q, effects ++ (advance year w.db w.now c p).effects⟩ := by
  cases p with
  | create userId username body categoryId priority tenantId =>
    simp only [advance] at h
    split at h <;> cases h
  | addMessage ticket authorId authorName body isInternal authorIsStaff =>
    simp only [advance] at h
    split at h <;> cases h
  | validate ticket assigneeId actorId actorName =>
    simp only [advance] at h ⊢
    split at h
    · cases h
    · cases h
      have heffects : effects = [] := hflying
      rw [heffects]
      rfl
  | category x scope =>
    simp only [advance] at h ⊢
    split at h
    · cases h
    · split at h
      · cases h
      · cases h
        exact hflying.1
  | logCategory x =>
    refine afterCategory_flying (fun hmoves => ?_) h
    rw [show x.moves = true from hflying] at hmoves
    cases hmoves
  | assignee x =>
    simp only [advance] at h ⊢
    split at h
    · cases h
    · cases h
      trivial
  | logAssignee x assignedAt =>
    cases h
    trivial
  | audit row => cases h
  | transfer x assignedAt =>
    simp only [advance] at h
    split at h <;> cases h
  | _ =>
    simp only [advance] at h
    split at h
    · cases h
    · cases h
      trivial

theorem advance_refused {e : TicketError} (hflying : Flying w ⟨p, effects⟩) (hfair : Fair w c p)
    (h : (advance year w.db w.now c p).next = .inr (.error e)) :
    (advance year w.db w.now c p).db = w.db ∧ effects = [] := by
  revert h
  cases p with
  | create userId username body categoryId priority tenantId =>
    simp only [advance]
    split
    · exact fun _ => ⟨rfl, hflying⟩
    · exact fun h => by cases h
  | addMessage ticket authorId authorName body isInternal authorIsStaff =>
    simp only [advance]
    split
    · exact fun _ => ⟨rfl, hflying.2⟩
    · exact fun h => by cases h
  | category x scope =>
    simp only [advance]
    split
    · exact fun _ => ⟨rfl, hflying.2⟩
    · split
      · exact fun _ => ⟨rfl, hflying.2⟩
      · exact fun h => by cases h
  | logCategory x =>
    simp only [advance]
    rcases afterCategory_next x w.db with hnext | hnext | hnext <;> rw [hnext] <;> exact fun h => by cases h
  | assignee x =>
    simp only [advance]
    split
    · rename_i hinvalid
      refine fun _ => ⟨rfl, hflying (Bool.eq_false_iff.mpr fun hmoves => ?_)⟩
      rw [hfair hmoves] at hinvalid
      cases hinvalid
    · exact fun h => by cases h
  | logAssignee x assignedAt => exact fun h => by cases h
  | transfer x assignedAt =>
    simp only [advance, show c.fails = false from hfair, Bool.false_eq_true, if_false]
    exact fun h => by cases h
  | setStatus ticket status actorId actorName closedAt =>
    simp only [advance]
    split
    · exact fun _ => ⟨rfl, hflying.2.2⟩
    · exact fun h => by cases h
  | reopen ticket actorId actorName actorIsStaff askedAt =>
    simp only [advance]
    split
    · exact fun _ => ⟨rfl, hflying.2⟩
    · exact fun h => by cases h
  | audit row => exact fun h => by cases h
  | _ =>
    simp only [advance]
    split
    · exact fun _ => ⟨rfl, hflying⟩
    · exact fun h => by cases h

theorem advance_stamped {effects before : List Effect} {t' : Ticket} {i : Nat} (hsane : Sane w)
    (hflying : Flying w ⟨p, effects⟩) (ht' : t' ∈ (advance year w.db w.now c p).db.tickets.rows)
    (hshut : ticketStatusIsClosed t'.status = true) :
    t'.closedAt ≤ (w.land i before (advance year w.db w.now c p)).closings t'.id := by
  have hlater := @land_later w before _ i hsane.past (@advance_retabled year w.db w.now c p).next
  have hold : ∀ t ∈ w.db.tickets.rows, t'.id = t.id → t'.closedAt = t.closedAt →
      ticketStatusIsClosed t.status = true →
        t'.closedAt ≤ (w.land i before (advance year w.db w.now c p)).closings t'.id := by
    intro t ht hid hsame hclosed
    rw [hsame, hid]
    exact Int.le_trans (hsane.stamped t ht hclosed) (hlater.closings t.id)
  cases advance_retabled.rewritten ht' with
  | kept hrow hother => exact hold t' hrow rfl rfl hshut
  | @edited g t hg hedit hruns ht heq =>
    subst heq
    cases edit_cases hedit t with
    | @reply ticket authorId authorName body isInternal authorIsStaff hp hid hf =>
      subst hf
      obtain ⟨-, hclosedAt, ⟨hstatus, -⟩ | ⟨-, -, hopen, -⟩⟩ :=
        replied_spec ticket authorId isInternal authorIsStaff w.now t
      · exact hold t ht (hg t) hclosedAt (hstatus ▸ hshut)
      · rw [hopen] at hshut
        cases hshut
    | @status ticket status actorName actorId closedAt hp hid hf =>
      subst hp
      subst hf
      have hnew : ticketStatusIsClosed status = true := by
        rw [restated] at hshut
        split at hshut <;> exact hshut
      have hclosing : Effect.closing t.id ∈ (advance year w.db w.now c
          (.setStatus ticket status actorId actorName closedAt)).effects := by
        simp only [advance, hruns, hnew, hid, Bool.false_eq_true, if_false, if_true]
        exact .tail _ (.head _)
      rw [hg t, World.land]
      dsimp only
      rw [if_pos hclosing, restated, if_pos hnew]
      exact hflying.2.1
    | reopen hp hid hf =>
      subst hf
      exact absurd hshut (by decide : ¬ticketStatusIsClosed "open" = true)
    | other hposts hstatus hclosedAt hresponse hcount => exact hold t ht (hg t) hclosedAt (hstatus ▸ hshut)
  | opened hcreate hruns heq =>
    subst heq
    exact absurd hshut (by decide : ¬ticketStatusIsClosed "open" = true)

theorem advance_named (hsane : Sane w) (hflying : Flying w ⟨p, effects⟩) :
    ∀ m ∈ (advance year w.db w.now c p).db.messages, m.ticketId < (advance year w.db w.now c p).db.tickets.next := by
  intro m hm
  rw [advance_messages] at hm
  rcases mem_append.mp hm with hm | hm
  · exact Int.lt_of_lt_of_le (hsane.named m hm) advance_retabled.next
  · split at hm
    · exact absurd hm not_mem_nil
    · exact posts_named hflying (Bool.eq_false_iff.mpr ‹_›) m hm

theorem Sane.land {i : Nat} (hsane : Sane w)
    (hnext : w.db.tickets.next ≤ o.db.tickets.next) (hupright : Upright (w.land i before o))
    (hnamed : ∀ m ∈ o.db.messages, m.ticketId < o.db.tickets.next)
    (hstamped : ∀ t ∈ o.db.tickets.rows, ticketStatusIsClosed t.status = true →
      t.closedAt ≤ (w.land i before o).closings t.id)
    (hflying : ∀ p, o.next = .inl p → Flying w ⟨p, before ++ o.effects⟩) : Sane (w.land i before o) := by
  have hlater := @land_later w before o i hsane.past hnext
  refine ⟨hupright, hsane.clock, hnamed, hstamped, fun id => ?_, fun j g hg => ?_⟩
  · simp only [World.land]
    split
    · exact Int.le_refl _
    · exact hsane.past id
  · rcases land_calls hg with ⟨-, p, hp, rfl⟩ | ⟨-, hold⟩
    · exact (hflying p hp).later hlater
    · exact (hsane.flights j g hold).later hlater

theorem Sane.quiet {i : Nat} (hsane : Sane w) (hdb : o.db = w.db) (heffects : o.effects = [])
    (hflying : ∀ p, o.next = .inl p → Flying w ⟨p, []⟩) : Sane (w.land i [] o) := by
  obtain ⟨db, effects, next⟩ := o
  cases hdb
  cases heffects
  refine hsane.land (Int.le_refl _) ⟨hsane.upright.closed, hsane.upright.counted⟩ hsane.named (fun t ht hshut => ?_)
    hflying
  simp only [World.land, not_mem_nil, if_false]
  exact hsane.stamped t ht hshut

theorem Sane.step (hsane : Sane w) (hsound : Sound w a) (h : Step year w a w') : Sane w' := by
  cases h with
  | @call i scope op c hfree =>
    obtain ⟨hdb, heffects⟩ := @begin_quiet w.db w.now scope c op
    exact hsane.quiet hdb heffects fun p hp => begin_flying hsane hp
  | @go i c f hcall =>
    have hflying := hsane.flights i f hcall
    have hfair := hsound f hcall
    refine hsane.land advance_retabled.next ⟨fun t' ht' => ?_, fun t' ht' => advance_counted hsane hflying hfair ht'⟩
      (advance_named hsane hflying) (fun t' ht' hshut => advance_stamped hsane hflying ht' hshut)
      fun p hp => advance_flying hflying hp
    rcases advance_edited hsane hflying hfair ht' with ⟨t, -, -, hclosed, -, -⟩ | ⟨-, hopen, hzero⟩
    · exact hclosed
    · rw [hopen, hzero]
      exact iff_of_false (Int.lt_irrefl 0) Bool.false_ne_true
  | @tick now hnow =>
    have hlater : Later w { w with now } := ⟨hnow, Int.le_refl _, fun _ => Int.le_refl _⟩
    exact ⟨⟨hsane.upright.closed, hsane.upright.counted⟩, Int.lt_of_lt_of_le hsane.clock hnow, hsane.named,
      hsane.stamped, fun id => Int.le_trans (hsane.past id) hnow, fun i f hf => (hsane.flights i f hf).later hlater⟩
  | @settle categories users =>
    have hlater : Later w { w with db := { w.db with categories, users } } :=
      ⟨Int.le_refl _, Int.le_refl _, fun _ => Int.le_refl _⟩
    exact ⟨⟨hsane.upright.closed, hsane.upright.counted⟩, hsane.clock, hsane.named, hsane.stamped, hsane.past,
      fun i f hf => (hsane.flights i f hf).later hlater⟩

theorem Sane.orderly (hsane : Sane w) (hsound : Sound w a) (h : Step year w a w') : Orderly year w a w' := by
  have hsame : ∀ {t t' : Ticket}, t ∈ w.db.tickets.rows → t' ∈ w.db.tickets.rows → t'.id = t.id → t' = t :=
    fun ht ht' hid => Table.eq_of_key ht' ht hid
  have hstill : w'.db.tickets = w.db.tickets → ∀ t ∈ w.db.tickets.rows, ∀ t' ∈ w'.db.tickets.rows, t'.id = t.id →
      t' = t := fun htickets t ht t' ht' hid => hsame ht (htickets ▸ ht') hid
  cases h with
  | @call i scope op c hfree =>
    obtain ⟨hdb, -⟩ := @begin_quiet w.db w.now scope c op
    have htickets : (w.land i [] (begin w.db w.now scope c op)).db.tickets = w.db.tickets := congrArg DB.tickets hdb
    refine ⟨fun t ht => ⟨t, htickets ▸ ht, rfl⟩, fun t ht t' ht' hid hshut hleft => ?_, fun t ht t' ht' hid _ => ?_,
      fun _ _ _ _ _ _ _ => hdb, fun _ _ _ ha => by cases ha⟩
    · rw [hstill htickets t ht t' ht' hid, hshut] at hleft
      cases hleft
    · rw [hstill htickets t ht t' ht' hid]
  | @go i c f hcall =>
    have hflying := hsane.flights i f hcall
    have hfair := hsound f hcall
    have hrow : ∀ t ∈ w.db.tickets.rows, ∀ t' ∈ (advance year w.db w.now c f.pending).db.tickets.rows, t'.id = t.id →
        (ticketStatusIsClosed t.status = true → ticketStatusIsClosed t'.status = false → Reopens w t f.pending) ∧
        (t.firstResponseAt ≠ 0 → t'.firstResponseAt = t.firstResponseAt) := by
      intro t ht t' ht' hid
      rcases advance_edited hsane hflying hfair ht' with ⟨t₀, ht₀, hid₀, -, hleaves, hresponse⟩ | ⟨hnew, -, -⟩
      · obtain rfl := hsame ht ht₀ (hid₀.symm.trans hid)
        exact ⟨hleaves, hresponse⟩
      · have hbelow := w.db.tickets.below t ht
        omega
    refine ⟨fun t ht => advance_retabled.kept ht, fun t ht t' ht' hid hshut hleft =>
      ⟨i, c, f, rfl, hcall, (hrow t ht t' ht' hid).1 hshut hleft⟩, fun t ht t' ht' hid => (hrow t ht t' ht' hid).2,
      fun _ _ _ _ _ ha => (by cases ha), fun j d g ha hrefused => ?_⟩
    cases ha
    obtain ⟨hg, e, herror⟩ := hrefused
    obtain rfl := Option.some.inj (hcall.symm.trans hg)
    exact advance_refused hflying hfair herror
  | tick =>
    refine ⟨fun t ht => ⟨t, ht, rfl⟩, fun t ht t' ht' hid hshut hleft => ?_, fun t ht t' ht' hid _ => ?_,
      fun _ _ _ _ _ ha => (by cases ha), fun _ _ _ ha => (by cases ha)⟩
    · rw [hstill rfl t ht t' ht' hid, hshut] at hleft
      cases hleft
    · rw [hstill rfl t ht t' ht' hid]
  | settle =>
    refine ⟨fun t ht => ⟨t, ht, rfl⟩, fun t ht t' ht' hid hshut hleft => ?_, fun t ht t' ht' hid _ => ?_,
      fun _ _ _ _ _ ha => (by cases ha), fun _ _ _ ha => (by cases ha)⟩
    · rw [hstill rfl t ht t' ht' hid, hshut] at hleft
      cases hleft
    · rw [hstill rfl t ht t' ht' hid]

theorem Quiet.sane (h : Quiet w) : Sane w := by
  refine ⟨⟨?_, ?_⟩, h.clock, ?_, ?_, h.closings, fun i f hf => ?_⟩
  · rw [h.tickets]
    exact fun t ht => absurd ht not_mem_nil
  · rw [h.tickets]
    exact fun t ht => absurd ht not_mem_nil
  · rw [h.messages]
    exact fun m hm => absurd hm not_mem_nil
  · rw [h.tickets]
    exact fun t ht => absurd ht not_mem_nil
  · rw [h.calls i] at hf
    cases hf

end invariant

section lifecycle

variable {year : Int → Int} {w₀ w w' : World} {as : List Act} {a : Act}

theorem ticket_lifecycle (hquiet : Quiet w₀) (hrun : Run (fun w a w' => Sound w a ∧ Step year w a w') w₀ as w) :
    Upright w ∧ ∀ a w', Sound w a → Step year w a w' → Orderly year w a w' := by
  have hsane : Sane w := hrun.guarded (fun _ _ _ hsane hsound hstep => hsane.step hsound hstep) hquiet.sane
  exact ⟨hsane.upright, fun a w' hsound hstep => hsane.orderly hsound hstep⟩

end lifecycle

section instances

variable {year : Int → Int} {w : World} {a : Act} {as : List Act} {c : Choice} {p : Pending}

instance : Decidable (Fair w c p) :=
  match p with
  | .addMessage ticket _ _ _ isInternal authorIsStaff => inferInstanceAs (Decidable (c.fails = false → isInternal = false →
      ticketStatusIsClosed ticket.status = false → ∀ t ∈ w.db.tickets.rows, t.id = ticket.id →
        ticketStatusIsClosed t.status = false ∧
          (authorIsStaff = true → ticket.firstResponseAt = 0 → t.firstResponseAt = 0)))
  | .setStatus ticket status _ _ _ => inferInstanceAs (Decidable (c.fails = false → ticketStatusIsClosed status = false →
      ∀ t ∈ w.db.tickets.rows, t.id = ticket.id → ticketStatusIsClosed t.status = false))
  | .assignee x => inferInstanceAs (Decidable (x.moves = true →
      w.db.validateAssignee c.fails x.newAssignee x.ticket = .ok ()))
  | .transfer _ _ => inferInstanceAs (Decidable (c.fails = false))
  | .create _ _ _ _ _ _ | .validate _ _ _ _ | .assign _ _ _ _ _ | .category _ _ | .logCategory _ | .logAssignee _ _
  | .setPriority _ _ _ _ | .reopen _ _ _ _ _ | .audit _ => inferInstanceAs (Decidable True)

def World.enabled (w : World) : Act → Bool
  | .call i _ _ _ => (w.calls i).isNone
  | .go i _ => (w.calls i).isSome
  | .tick now => w.now ≤ now
  | .settle _ _ => true

def World.sound (w : World) : Act → Bool
  | .go i c => (w.calls i).all fun f => Fair w c f.pending
  | _ => true

def World.next (year : Int → Int) (w : World) : Act → World
  | .call i scope op c => w.land i [] (begin w.db w.now scope c op)
  | .go i c => match w.calls i with
    | some f => w.land i f.effects (advance year w.db w.now c f.pending)
    | none => w
  | .tick now => { w with now }
  | .settle categories users => { w with db := { w.db with categories, users } }

def World.accepts (year : Int → Int) (guard : World → Act → Bool) : World → List Act → Bool
  | _, [] => true
  | w, a :: as => guard w a && (w.enabled a && World.accepts year guard (w.next year a) as)

theorem step_next (h : w.enabled a = true) : Step year w a (w.next year a) := by
  cases a with
  | call i scope op c => exact .call (Option.isNone_iff_eq_none.mp h)
  | go i c =>
    obtain ⟨f, hf⟩ := Option.isSome_iff_exists.mp h
    have hnext : w.next year (.go i c) = w.land i f.effects (advance year w.db w.now c f.pending) := by
      rw [World.next, hf]
    rw [hnext]
    exact .go hf
  | tick now => exact .tick (of_decide_eq_true h)
  | settle => exact .settle

theorem sound_of_check (h : w.sound a = true) : Sound w a := by
  cases a with
  | go i c =>
    intro f hf
    have hall : (w.calls i).all (fun f => decide (Fair w c f.pending)) = true := h
    rw [hf] at hall
    exact of_decide_eq_true hall
  | _ => trivial

theorem run_accepted {guard : World → Act → Bool} (h : w.accepts year guard as = true) :
    Run (fun w a w' => guard w a = true ∧ Step year w a w') w as (as.foldl (World.next year) w) := by
  induction as generalizing w with
  | nil => exact .nil w
  | cons a as ih =>
    obtain ⟨hguard, hrest⟩ := Bool.and_eq_true_iff.mp h
    obtain ⟨henabled, hrest⟩ := Bool.and_eq_true_iff.mp hrest
    exact .cons ⟨hguard, step_next henabled⟩ (ih hrest)

def emptyDesk : World where
  db := ⟨.empty, [], [], [⟨1, 0, "active"⟩], [⟨2, "admin", 0⟩]⟩
  now := 1000
  calls := fun _ => none
  closings := fun _ => 0

def fine : Choice := ⟨false, true⟩

def desk : Scope := ⟨0, true⟩

def askAndSolve : List Act :=
  [.call 0 desk (.createTicket 7 "bob" "down" "help" 1 "high") fine, .go 0 fine,
    .call 1 desk (.addMessage 1 2 "root" "on it" false true) fine, .go 1 fine,
    .call 2 desk (.setStatus 1 "solved" 2 "root") fine, .go 2 fine, .go 2 fine]

def solveAndSetOpen : List Act := askAndSolve ++ [.call 3 desk (.setStatus 1 "open" 2 "root") fine, .go 3 fine]

theorem emptyDesk_quiet : Quiet emptyDesk := 
  ⟨rfl, rfl, fun _ => rfl, by decide, fun _ => (by decide : (0 : Int) ≤ 1000)⟩

theorem ticket_lifecycle_solved : ∃ w, Upright w ∧ w.db.tickets.rows.map (·.closedAt) = [1000] ∧
    Run (fun w a w' => Sound w a ∧ Step (fun _ => 2026) w a w') emptyDesk askAndSolve w := by
  have haccepted : emptyDesk.accepts (fun _ => 2026) World.sound askAndSolve = true := by decide +kernel
  have hrun : Run (fun w a w' => Sound w a ∧ Step (fun _ => 2026) w a w') emptyDesk askAndSolve _ :=
    (run_accepted haccepted).mono fun _ _ _ h => ⟨sound_of_check h.1, h.2⟩
  exact ⟨_, (ticket_lifecycle emptyDesk_quiet hrun).1, by decide +kernel, hrun⟩

theorem closed_at_left_behind : ∃ as w, Quiet emptyDesk ∧ Run (Step fun _ => 2026) emptyDesk as w ∧ ¬Upright w := by
  have haccepted : emptyDesk.accepts (fun _ => 2026) (fun _ _ => true) solveAndSetOpen = true := by decide +kernel
  have hrun := (run_accepted haccepted).mono fun _ _ _ h => h.2
  refine ⟨_, _, emptyDesk_quiet, hrun, fun hupright => ?_⟩
  have hstale : (solveAndSetOpen.foldl (World.next fun _ => 2026) emptyDesk).db.tickets.rows.any
      (fun t => 0 < t.closedAt && !ticketStatusIsClosed t.status) = true := by
    decide +kernel
  obtain ⟨t, ht, hbad⟩ := any_eq_true.mp hstale
  obtain ⟨hclosedAt, hopen⟩ := Bool.and_eq_true_iff.mp hbad
  have hclosed := (hupright.closed t ht).mp (of_decide_eq_true hclosedAt)
  rw [hclosed] at hopen
  cases hopen

end instances

end Tickets

end QuiPanel
