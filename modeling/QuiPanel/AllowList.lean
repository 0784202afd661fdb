import QuiPanel.Desk

namespace QuiPanel

namespace Clients

open Keyed Outcome

section visible

variable {user : Staff} {p : Panel} {i : Int}

def InForce (user : Staff) (p : Panel) (i : Int) : Prop :=
  (getAllowedInbounds p user.tenantId = [] ∨ i ∈ getAllowedInbounds p user.tenantId) ∧
    (user.allowedInbounds = [] ∨ i ∈ user.allowedInbounds)

def VisibleExactly (user : Staff) (p : Panel) : Prop :=
  ∀ o, o ∈ getVisibleInboundOptions user p ↔ o ∈ allInboundOptions p ∧ InForce user p o.id

def ListsMeet (user : Staff) (p : Panel) : Prop :=
  getAllowedInbounds p user.tenantId = [] ∨ user.allowedInbounds = [] ∨
    (∃ i ∈ user.allowedInbounds, i ∈ getAllowedInbounds p user.tenantId) ∨ allInboundOptions p = []

theorem mem_intersectInts {a b : List Int} : i ∈ intersectInts a b ↔ i ∈ a ∧ i ∈ b := by
  simp [intersectInts]

theorem mem_effectiveInbounds (hne : effectiveInbounds user p ≠ []) :
    i ∈ effectiveInbounds user p ↔ InForce user p i := by
  by_cases hown : user.allowedInbounds = []
  · have heff : effectiveInbounds user p = getAllowedInbounds p user.tenantId := by
      simp [effectiveInbounds, hown]
    rw [heff] at hne ⊢
    simp [InForce, hown, hne]
  · by_cases hworkspace : getAllowedInbounds p user.tenantId = []
    · simp [effectiveInbounds, InForce, hown, hworkspace]
    · simp [effectiveInbounds, InForce, hown, hworkspace, mem_intersectInts, and_comm]

theorem effectiveInbounds_nil (h : effectiveInbounds user p = []) :
    (∀ i, InForce user p i) ∨
      (getAllowedInbounds p user.tenantId ≠ [] ∧ user.allowedInbounds ≠ [] ∧ ∀ i, ¬ InForce user p i) := by
  by_cases hown : user.allowedInbounds = []
  · have heff : getAllowedInbounds p user.tenantId = [] := by simpa [effectiveInbounds, hown] using h
    exact .inl fun i => ⟨.inl heff, .inl hown⟩
  · by_cases hworkspace : getAllowedInbounds p user.tenantId = []
    · simp [effectiveInbounds, hown, hworkspace] at h
    · refine .inr ⟨hworkspace, hown, ?_⟩
      rintro i ⟨hi, hi'⟩
      have hin : i ∈ effectiveInbounds user p := by
        simp [effectiveInbounds, hown, hworkspace, mem_intersectInts, hi.resolve_left hworkspace,
          hi'.resolve_left hown]
      rw [h] at hin
      cases hin

theorem listsMeet_of_inForce (h : InForce user p i) : ListsMeet user p := by
  obtain ⟨hworkspace | hworkspace, hown⟩ := h
  · exact .inl hworkspace
  · rcases hown with hown | hown
    · exact .inr (.inl hown)
    · exact .inr (.inr (.inl ⟨i, hown, hworkspace⟩))

theorem visible_iff (hadmin : user.isAdmin = false) : VisibleExactly user p ↔ ListsMeet user p := by
  by_cases heff : effectiveInbounds user p = []
  · have hvisible : getVisibleInboundOptions user p = allInboundOptions p := by
      simp [getVisibleInboundOptions, allowedInboundSet, hadmin, heff]
    rw [VisibleExactly, hvisible]
    rcases effectiveInbounds_nil heff with hall | ⟨hworkspace, hown, hnone⟩
    · exact ⟨fun _ => listsMeet_of_inForce (hall 0), fun _ o => ⟨fun ho => ⟨ho, hall _⟩, And.left⟩⟩
    · constructor
      · intro hexact
        have hempty : allInboundOptions p = [] := by
          rw [List.eq_nil_iff_forall_not_mem]
          intro o ho
          exact hnone o.id ((hexact o).mp ho).2
        exact .inr (.inr (.inr hempty))
      · rintro (hw | ho | ⟨i, hi, hi'⟩ | hempty)
        · exact absurd hw hworkspace
        · exact absurd ho hown
        · exact absurd ⟨.inr hi', .inr hi⟩ (hnone i)
        · intro o
          simp [hempty]
  · have hvisible : getVisibleInboundOptions user p =
        (allInboundOptions p).filter fun o => (effectiveInbounds user p).contains o.id := by
      simp [getVisibleInboundOptions, allowedInboundSet, hadmin, heff]
    have hexact : VisibleExactly user p := by
      intro o
      rw [hvisible, List.mem_filter, List.contains_iff_mem, mem_effectiveInbounds heff]
    refine ⟨fun _ => ?_, fun _ => hexact⟩
    obtain ⟨i, hi⟩ := List.exists_mem_of_ne_nil _ heff
    exact listsMeet_of_inForce ((mem_effectiveInbounds heff).mp hi)

end visible

section confined

variable {env : Env} {d : Draws} {o : Attempt} {db db' : DB} {client client' : Client} {i j : Int}
  {attached is : List Int} {k : Nat}

def reachable (db : DB) (o : Attempt) (i : Int) : Bool :=
  o.read.isNone && o.plan.isOk && o.write.isNone && (db.clientsOf i).isSome

def reached (db : DB) (attempts : Nat → Attempt) (attached : List Int) : Nat → List Int → List Int
  | _, [] => []
  | k, i :: is =>
    if attached.contains i then reached db attempts attached (k + 1) is
    else if reachable db (attempts k) i then i :: reached db attempts attached (k + 1) is
    else []

theorem addTo_frame (h : addTo env o db client i = .ok (db', client')) :
    reachable db o i = true ∧ (∀ j, j ≠ i → db'.clientsOf j = db.clientsOf j) ∧
      ∀ j, (db'.clientsOf j).isSome = (db.clientsOf j).isSome := by
  simp only [addTo, addInboundClient, bind_ok, orErr_ok, check_ok, List.map_singleton] at h
  obtain ⟨_, hread, ib, hib, mid, ⟨_, -, ib', hib', _, -, cs, hcs, push, hplan, _, hwrite, hsync⟩, h⟩ := h
  cases h
  cases hib.symm.trans hib'
  obtain ⟨hinbounds, -, -⟩ := syncInbound_ok hsync
  have hof : ∀ j, db'.clientsOf j = if j = i then (db.inbounds.find i).map fun _ => compactOrphans db cs ++
      [stampEntry o (clientWithInboundFlow (fillProtocolDefaults env o client ib) ib)]
      else db.clientsOf j := by
    intro j
    rw [DB.clientsOf, hinbounds]
    exact clientsOf_saveClients
  have hsome : (db.clientsOf i).isSome = true := by
    rw [DB.clientsOf, hib, Option.bind_some, hcs]
    rfl
  refine ⟨?_, ?_, ?_⟩
  · rw [reachable, hread, hplan, hwrite, hsome]
    rfl
  · intro j hne
    rw [hof, if_neg hne]
  · intro j
    rw [hof]
    split
    case isTrue he => rw [he, hib, hsome]; rfl
    case isFalse => rfl

theorem reached_congr {attempts : Nat → Attempt}
    (h : ∀ j, (db'.clientsOf j).isSome = (db.clientsOf j).isSome) (k : Nat) :
    reached db' attempts attached k is = reached db attempts attached k is := by
  induction is generalizing k with
  | nil => rfl
  | cons i is ih =>
    have hreach : reachable db' (attempts k) i = reachable db (attempts k) i := by
      rw [reachable, reachable, h]
    rw [reached, reached, ih, hreach]

variable (env client) in
theorem addToInbounds_confined (hj : j ∉ reached db d.attempts [] k is) :
    (addToInbounds env d k db client is).1.clientsOf j = db.clientsOf j := by
  induction is generalizing k db client with
  | nil => rfl
  | cons i is ih =>
    rw [addToInbounds]
    split
    · rfl
    case h_2 db' client' hadd =>
      obtain ⟨hreach, hframe, hsome⟩ := addTo_frame hadd
      simp only [reached, List.contains_nil, Bool.false_eq_true, hreach, if_true, if_false,
        List.mem_cons, not_or] at hj
      have hrest : j ∉ reached db' d.attempts [] (k + 1) is := by
        rw [reached_congr hsome]
        exact hj.2
      exact (ih client' hrest).trans (hframe j hj.1)

theorem attachToInbounds_confined (hj : j ∉ reached db d.attempts attached k is) :
    (attachToInbounds env d attached client k db is).1.clientsOf j = db.clientsOf j := by
  induction is generalizing k db with
  | nil => rfl
  | cons i is ih =>
    rw [attachToInbounds]
    rw [reached] at hj
    split at hj
    case isTrue hhave =>
      rw [if_pos hhave]
      exact ih hj
    case isFalse hnew =>
      rw [if_neg hnew]
      split
      · rfl
      case h_2 db' client' hadd =>
        obtain ⟨hreach, hframe, hsome⟩ := addTo_frame hadd
        simp only [hreach, if_true, List.mem_cons, not_or] at hj
        have hrest : j ∉ reached db' d.attempts attached (k + 1) is := by
          rw [reached_congr hsome]
          exact hj.2
        exact (ih hrest).trans (hframe j hj.1)

theorem create_confined {payload : ClientCreatePayload} (hj : j ∉ reached db d.attempts [] 0 payload.inboundIds) :
    (create env d db payload).1.clientsOf j = db.clientsOf j := by
  rw [create]
  split
  · rfl
  case h_2 client hprepare =>
    have hloop := addToInbounds_confined env client hj
    split
    case h_1 db' err heq => rwa [heq] at hloop
    case h_2 db' client' heq =>
      rw [heq] at hloop
      split
      · exact hloop
      · exact hloop

theorem attachByEmail_confined {email : String}
    (hj : ∀ rec, db.record email = some rec →
      j ∉ reached db d.attempts (db.inboundIdsOf rec.recordId) 0 is) :
    (attachByEmail env d db email is).1.clientsOf j = db.clientsOf j := by
  rw [attachByEmail]
  by_cases hemail : email = ""
  · simp [hemail]
  · rw [if_neg hemail]
    cases hrec : db.record email with
    | none => rfl
    | some rec => exact attachToInbounds_confined (hj rec hrec)

end confined

section requests

variable {env : Env} {user : Staff} {x : Draw} {p : Panel}

inductive Addition
  | create (payload : ClientCreatePayload)
  | attach (email : String) (inboundIds : List Int)

def Addition.request : Addition → Request
  | .create payload => .create payload
  | .attach email inboundIds => .attach email inboundIds

def stepAddition (env : Env) (user : Staff) (p : Panel) (a : Addition × Draw) : Panel :=
  (handle env user a.2 p a.1.request).1

def runAdditions (env : Env) (user : Staff) (p : Panel) (acts : List (Addition × Draw)) : Panel :=
  acts.foldl (stepAddition env user) p

def createStopped (user : Staff) (x : Draw) (p : Panel) (payload : ClientCreatePayload) : Bool :=
  (user.tenantId != globalTenantId && overBandwidthQuota p user.tenantId) ||
    match charge user x.wallet p (createCost user p payload.client.totalGB) payload.client.totalGB with
    | .error _ => true
    | .ok _ => !(prepare x.client p.db payload).isOk

def StaysInside (user : Staff) (p : Panel) : Addition × Draw → Prop
  | (.create payload, x) =>
    createStopped user x p (createPayload user x.client payload) = true ∨
      ∀ i ∈ reached p.db x.client.attempts [] 0 payload.inboundIds, InForce user p i
  | (.attach email inboundIds, x) =>
    requireOwnership user p email = false ∨
      ∀ rec, p.db.record email = some rec →
        ∀ i ∈ reached p.db x.client.attempts (p.db.inboundIdsOf rec.recordId) 0 inboundIds, InForce user p i

def Confined (user : Staff) (p p' : Panel) : Prop :=
  ∀ i, ¬ InForce user p i → p'.db.clientsOf i = p.db.clientsOf i

variable (env user x p) in
theorem createClient_effect (payload : ClientCreatePayload) :
    (createClient env user x p payload).1.workspaceInbounds = p.workspaceInbounds ∧
      ((createClient env user x p payload).1.db = p.db ∨
        (createStopped user x p (createPayload user x.client payload) = false ∧
          (createClient env user x p payload).1.db =
            (create env x.client p.db (createPayload user x.client payload)).1)) := by
  rw [createClient]
  split
  · exact ⟨rfl, .inl rfl⟩
  case isFalse hquota =>
    dsimp only
    generalize createPayload user x.client payload = payload
    obtain ⟨hworkspace, ⟨-, hsame⟩ | ⟨hcharged, hacted⟩⟩ := @prepaid_keeps user x.wallet p
      (createCost user p payload.client.totalGB) payload.client.totalGB fun db => create env x.client db payload
    · exact ⟨hworkspace, .inl (congrArg Panel.db hsame)⟩
    · refine ⟨hworkspace, ?_⟩
      rw [hacted]
      cases hprepare : prepare x.client p.db payload with
      | error err =>
        left
        rw [create, hprepare]
      | ok client =>
        refine .inr ⟨?_, rfl⟩
        rw [createStopped]
        split
        case h_1 err hcharge =>
          rw [hcharge] at hcharged
          cases hcharged
        case h_2 p' hcharge =>
          rw [hprepare]
          simpa [Except.isOk, Except.toBool] using hquota

variable (env) in
theorem stepAddition_confined {a : Addition × Draw} (h : StaysInside user p a) :
    Confined user p (stepAddition env user p a) ∧
      (stepAddition env user p a).workspaceInbounds = p.workspaceInbounds := by
  obtain ⟨act, x⟩ := a
  cases act with
  | create payload =>
    obtain ⟨hworkspace, heffect⟩ := createClient_effect env user x p payload
    refine ⟨?_, hworkspace⟩
    intro i hout
    rcases heffect with hsame | ⟨hopen, hcreated⟩
    · exact congrArg (fun db => DB.clientsOf db i) hsame
    · rcases h with hstopped | hinside
      · rw [hopen] at hstopped
        cases hstopped
      · refine (congrArg (fun db => DB.clientsOf db i) hcreated).trans ?_
        apply create_confined
        intro hin
        exact hout (hinside i hin)
  | attach email inboundIds =>
    have hstep : stepAddition env user p (.attach email inboundIds, x) =
        (if requireOwnership user p email then
          onClients p (attachByEmail env x.client p.db email inboundIds) else (p, .error forbidden)).1 :=
      rfl
    rw [hstep]
    split
    case isTrue hown =>
      refine ⟨?_, rfl⟩
      intro i hout
      apply attachByEmail_confined
      intro rec hrec hin
      rcases h with hforeign | hinside
      · rw [hown] at hforeign
        cases hforeign
      · exact hout (hinside rec hrec i hin)
    case isFalse => exact ⟨fun _ _ => rfl, rfl⟩

def StaysInsideThroughout (env : Env) (user : Staff) : Panel → List (Addition × Draw) → Prop
  | _, [] => True
  | p, a :: acts => StaysInside user p a ∧ StaysInsideThroughout env user (stepAddition env user p a) acts

theorem inForce_congr {p' : Panel} {i : Int} (h : p'.workspaceInbounds = p.workspaceInbounds) :
    InForce user p' i ↔ InForce user p i := by
  rw [InForce, InForce, getAllowedInbounds, getAllowedInbounds, h]

theorem runAdditions_confined {acts : List (Addition × Draw)} (h : StaysInsideThroughout env user p acts) :
    Confined user p (runAdditions env user p acts) := by
  induction acts generalizing p with
  | nil => exact fun _ _ => rfl
  | cons a acts ih =>
    obtain ⟨hinside, hrest⟩ := h
    obtain ⟨hconfined, hworkspace⟩ := stepAddition_confined env hinside
    intro i hout
    have hout' : ¬ InForce user (stepAddition env user p a) i := by
      rwa [inForce_congr hworkspace]
    exact (ih hrest i hout').trans (hconfined i hout)

theorem allow_list_enforced (env : Env) (user : Staff) (p : Panel) (hadmin : user.isAdmin = false) :
    (VisibleExactly user p ↔ ListsMeet user p) ∧
      ∀ acts, StaysInsideThroughout env user p acts →
        ∀ n, Confined user p (runAdditions env user p (acts.take n)) := by
  refine ⟨visible_iff hadmin, ?_⟩
  intro acts h n
  apply runAdditions_confined
  induction acts generalizing p n with
  | nil => simpa using h
  | cons a acts ih =>
    cases n with
    | zero => trivial
    | succ n => exact ⟨h.1, ih _ h.2 n⟩

end requests

def moderator (allowedInbounds : List Int) : Staff :=
  ⟨⟨9, "mod", .moderator, 4, 1000, 0⟩, allowedInbounds, 0⟩

def deskOver (db : DB) : Panel where
  db
  workspaceInbounds := fun tenantId => if tenantId = 4 then [1] else []
  quotas := fun _ => none
  clientCost := fun _ _ => (0, 10)
  resetCost := fun _ _ => (0, 5)
  charges := []

def freshClient (email : String) (totalGB : Int) : Client where
  id := ""
  security := ""
  password := ""
  flow := ""
  reverse := none
  auth := ""
  email
  limitIP := 0
  totalGB
  expiryTime := 0
  enable := true
  tgID := 0
  subID := ""
  group := ""
  comment := ""
  reset := 0
  createdAt := 0
  updatedAt := 0

def granted : Draws := { secondNodeUnknown with attempts := fun _ => attemptWith (.ok true) }

def smooth : Draw := ⟨granted, granted, ⟨none, none⟩⟩

def createOn (inboundIds : List Int) : Addition × Draw :=
  (.create ⟨freshClient "cfg" 1073741824, inboundIds, 0, 0⟩, smooth)

theorem allow_list_enforced_inside :
    VisibleExactly (moderator [1, 2]) (deskOver twoInbounds) ∧
      ∀ n, Confined (moderator [1, 2]) (deskOver twoInbounds)
        (runAdditions plainEnv (moderator [1, 2]) (deskOver twoInbounds) ([createOn [1]].take n)) := by
  have henforced := allow_list_enforced plainEnv (moderator [1, 2]) (deskOver twoInbounds) (by decide)
  have hreached : reached twoInbounds granted.attempts [] 0 [1] = [1] := by decide +kernel
  have hone : InForce (moderator [1, 2]) (deskOver twoInbounds) 1 := ⟨.inr (by decide), .inr (by decide)⟩
  refine ⟨henforced.1.mpr (listsMeet_of_inForce hone), henforced.2 [createOn [1]] ⟨.inr ?_, trivial⟩⟩
  intro i hi
  have hi' : i ∈ reached twoInbounds granted.attempts [] 0 [1] := hi
  rw [hreached, List.mem_singleton] at hi'
  rw [hi']
  exact hone

theorem allow_list_bypassed :
    ¬ VisibleExactly (moderator [2]) (deskOver twoInbounds) ∧
      ¬ Confined (moderator []) (deskOver twoInbounds)
        (stepAddition plainEnv (moderator []) (deskOver twoInbounds) (createOn [2])) := by
  constructor
  · intro hexact
    have hoffered : ⟨1, .vless, none, "", true⟩ ∈
        getVisibleInboundOptions (moderator [2]) (deskOver twoInbounds) := by decide +kernel
    obtain ⟨-, -, hown⟩ := (hexact _).mp hoffered
    exact absurd hown (by decide)
  · intro hconfined
    have hout : ¬ InForce (moderator []) (deskOver twoInbounds) 2 := by
      rintro ⟨hworkspace, -⟩
      exact absurd hworkspace (by decide)
    have hsame := hconfined 2 hout
    have hcount := congrArg (fun cs => (cs.getD []).length) hsame
    have hbefore : (((deskOver twoInbounds).db.clientsOf 2).getD []).length = 0 := by decide +kernel
    have hafter : (((stepAddition plainEnv (moderator []) (deskOver twoInbounds)
        (createOn [2])).db.clientsOf 2).getD []).length = 1 := by decide +kernel
    rw [hbefore, hafter] at hcount
    cases hcount

end Clients

end QuiPanel
