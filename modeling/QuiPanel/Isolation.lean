import QuiPanel.Review

namespace QuiPanel

open ReadCommitted Ledger Review

namespace Isolation

def AtHome (s : Store panel) : Request → Prop
  | .submit dir http _ _ _ => ∀ user ∈ http.user, ∀ u ∈ s.row (.user user.id),
      (Tenancy.resolveTenant dir http).view = User.tenantId u
  | _ => True

def Housed (s t : Store panel) : Prop :=
  ∀ id (d : ManualDepositRequest), t.row (.deposit id) = some d →
    ∀ u ∈ s.row (.user d.userId), User.tenantId u = d.tenantId

section housed

variable {s : Store panel} {R : Rely panel} {req : Request} {p : Pending panel}

theorem submits_housed {row : ManualDepositRequest} (hhome : AtHome s req) (h : req.submits row) :
    ∀ u ∈ s.row (.user row.userId), User.tenantId u = row.tenantId := by
  cases req with
  | submit dir http amount desc receipt =>
    obtain ⟨user, huser, hid, htenant, -⟩ := h
    rw [hid, htenant]
    exact fun u hu => (hhome user huser u hu).symm
  | _ => exact h.elim

theorem housed_apply {t : Store panel} (hhome : AtHome s req) (h : Effect R req p)
    (ht : Housed s t) (ha : p.Agrees t) : Housed s (p.apply t) := by
  intro id d hd
  cases hh : p.held (.deposit id) with
  | none =>
    rw [Pending.apply_row_of_free hh] at hd
    exact ht id d hd
  | some b =>
    obtain ⟨old, new⟩ := b
    rw [Pending.apply_row_of_held hh] at hd
    obtain rfl : d = new := (Option.some.inj hd).symm
    have hold := ha _ _ _ hh
    have hkeep : ∀ q : ManualDepositRequest, old = some q → d.claim = q.claim →
        ∀ u ∈ s.row (.user d.userId), User.tenantId u = d.tenantId := by
      rintro q rfl hc u hu
      have huser : d.userId = q.userId := congrArg (·.1) hc
      have htenant : d.tenantId = q.tenantId := congrArg (·.2.1) hc
      rw [huser] at hu
      rw [htenant]
      exact ht id q hold u hu
    cases effect_deposit h hh with
    | submitted hreq _ => exact submits_housed hhome hreq
    | rejected _ _ hclaim _ => exact hkeep _ rfl hclaim
    | approved _ _ _ _ _ _ _ hclaim _ => exact hkeep _ rfl hclaim

theorem approval_mem {adminId id : Int} {scope : Scope} {e : Transaction}
    (h : Effect R (.approve adminId id scope) p) (he : e ∈ approvals id p.log) :
    ∃ dep : ManualDepositRequest, R (.deposit id) (some dep) ∧ scope.sees dep.tenantId = true ∧
      e.userId = dep.userId := by
  cases hh : p.held (.deposit id) with
  | none =>
    rw [effect_silent h hh] at he
    cases he
  | some b =>
    obtain ⟨old, new⟩ := b
    cases effect_deposit h hh with
    | submitted _ hlog | rejected _ _ _ hlog =>
      rw [hlog] at he
      cases he
    | approved u hreq hread hsees _ _ _ _ hlog =>
      rw [hlog, approval_own] at he
      obtain rfl := List.mem_singleton.mp he
      cases hreq
      exact ⟨_, hread, hsees, rfl⟩

end housed

theorem mem_log {ι : Type} [DecidableEq ι] {w : Panel ι} {i : ι} {e : Transaction} :
    e ∈ log (w.events i) ↔ ∃ p, (i, .commit p) ∈ w.hist ∧ e ∈ p.log := by
  simp only [log, List.mem_flatMap]
  constructor
  · rintro ⟨ev, hev, he⟩
    cases ev with
    | commit p => exact ⟨p, World.mem_events.mp hev, he⟩
    | _ => cases he
  · rintro ⟨p, hp, he⟩
    exact ⟨.commit p, World.mem_events.mpr hp, he⟩

theorem deposits_isolated {ι : Type} [DecidableEq ι] {s : Store panel} {req : ι → Request}
    (hs : Sane s) (hhoused : Housed s s) (hhome : ∀ i, AtHome s (req i)) {w : Panel ι}
    (hr : World.Reachable (Panel.boot s req) w) {i : ι} {adminId id : Int} {scope : Scope}
    (hi : req i = .approve adminId id scope) (hscope : scope.global = false) :
    ∀ e ∈ approvals id (log (w.events i)), ∀ u : User,
      w.store.row (.user e.userId) = some u → u.tenantId = scope.tenantId := by
  have hmeets := pinned_meets hs hr fun i => anything _ (pinned_steady s w.store) (req i)
  have hadm := pinned_admitted hs hr
  have hsound := World.sound_reachable hmeets hr hadm
  have hfinal : Housed s w.store := World.store_invariant (I := Housed s) hmeets hhoused
    (fun i p t hp ht ha _ => housed_apply (hhome i) hp ht ha) hr hadm
  intro e he u hu
  obtain ⟨hmem, hsource⟩ := List.mem_filter.mp he
  obtain ⟨p, hp, hep⟩ := mem_log.mp hmem
  have heffect : Effect (Pinned s w.store) (req i) p := hsound.commits i p hp
  rw [hi] at heffect
  obtain ⟨dep, hread, hsees, huser⟩ := approval_mem heffect (List.mem_filter.mpr ⟨hep, hsource⟩)
  obtain ⟨-, q, hq, hclaim⟩ := hread dep rfl
  have hquser : q.userId = e.userId := (congrArg (·.1) hclaim).trans huser.symm
  have hqtenant : q.tenantId = dep.tenantId := congrArg (·.2.1) hclaim
  obtain ⟨hsome, hprofile⟩ := hsound.rows (.user e.userId)
  rw [hu] at hsome
  obtain ⟨u₀, hu₀⟩ := Option.isSome_iff_exists.mp hsome.symm
  have hsame : u.profile = User.profile u₀ := (hprofile u hu).2 u₀ hu₀
  have htenant : u.tenantId = u₀.tenantId := by
    have h := congrArg User.tenantId hsame
    exact h
  have hhome₀ : u₀.tenantId = q.tenantId := hfinal id q hq u₀ (by rw [hquser]; exact hu₀)
  have hview : dep.tenantId = scope.tenantId := by simpa [Scope.sees, hscope] using hsees
  rw [htenant, hhome₀, hqtenant, hview]

def twoWorkspaces : Store panel where
  row k := match k with
    | .user id => if id = 1 then some ⟨1, "buyer", .member, 1, 0, 0⟩ else none
    | .tenant _ | .product _ | .order _ | .payment _ | .deposit _ => none
  log := []

def directory : Tenancy.Directory where
  byId _ := none
  bySlug slug := if slug = "beta" then some ⟨2, "beta", 9, .active, ""⟩ else none
  byDomain _ := none
  byManagerUserId _ := none

def visiting (workspace : Option String) (tenantId : Int) : Bool → Request
  | false => .submit directory ⟨some ⟨1, "buyer", .member, 1, 0, 0⟩, none, workspace, ""⟩ 500 "card" ""
  | true => .approve 9 5 (.tenantOnly tenantId)

theorem twoWorkspaces_sane : Sane twoWorkspaces where
  users id u h := by
    simp only [twoWorkspaces] at h
    split at h
    · obtain rfl := Option.some.inj h
      decide
    · cases h
  deposits id d h := by simp [twoWorkspaces] at h

theorem twoWorkspaces_housed : Housed twoWorkspaces twoWorkspaces := by
  intro id d h
  simp [twoWorkspaces] at h

def visit : List (Bool × Choice panel) :=
  [(false, .fresh 5)] ++ List.replicate 3 (true, .go) ++ [(true, .answer refusing)] ++
    List.replicate 5 (true, .go)

theorem deposits_isolated_at_home :
    ∃ w, World.Reachable (Panel.boot twoWorkspaces (visiting none 1)) w ∧
      approvals 5 (log (w.events true)) ≠ [] ∧
      ∀ e ∈ approvals 5 (log (w.events true)), ∀ u : User,
        w.store.row (.user e.userId) = some u → u.tenantId = 1 := by
  have hhome : ∀ i, AtHome twoWorkspaces (visiting none 1 i) := by
    rintro (_ | _)
    · rintro user ⟨⟩ u hu
      obtain rfl := Option.some.inj hu
      rfl
    · trivial
  have hrun : ((Panel.boot twoWorkspaces (visiting none 1)).exec visit).map (fun w =>
      (approvals 5 (log (w.events true))).isEmpty) = some false := by decide +kernel
  obtain ⟨w, hr, he⟩ := World.exec_reaches hrun
  have hne : approvals 5 (log (w.events true)) ≠ [] := by
    intro hnil
    simp [hnil] at he
  have hi : visiting none 1 true = .approve 9 5 (.tenantOnly 1) := rfl
  exact ⟨w, hr, hne, deposits_isolated twoWorkspaces_sane twoWorkspaces_housed hhome hr hi rfl⟩

theorem deposit_crosses_workspaces : ¬∀ (s : Store panel) (req : Bool → Request) (w : Panel Bool),
    Sane s → Housed s s → World.Reachable (Panel.boot s req) w →
    ∀ i adminId id scope, req i = .approve adminId id scope → scope.global = false →
    ∀ e ∈ approvals id (log (w.events i)), ∀ u : User,
      w.store.row (.user e.userId) = some u → u.tenantId = scope.tenantId := by
  intro h
  have hrun : ((Panel.boot twoWorkspaces (visiting (some "beta") 2)).exec visit).map (fun w =>
      ((approvals 5 (log (w.events true))).any (·.userId == 1),
        (w.store.row (.user 1)).map fun u : User => (u.tenantId, u.balance))) =
      some (true, some (1, 500)) := by decide +kernel
  obtain ⟨w, hr, he⟩ := World.exec_reaches hrun
  obtain ⟨hany, hrow⟩ := Prod.mk.inj he
  obtain ⟨e, hmem, huser⟩ := List.any_eq_true.mp hany
  obtain ⟨u, hu, hpair⟩ := Option.map_eq_some_iff.mp hrow
  have huser : e.userId = 1 := by simpa using huser
  have htwo := h _ _ w twoWorkspaces_sane twoWorkspaces_housed hr true 9 5 _ rfl rfl e hmem u
    (by rw [huser]; exact hu)
  have hone : u.tenantId = 1 := (Prod.mk.inj hpair).1
  rw [hone] at htwo
  exact absurd htwo (by decide)

end Isolation

end QuiPanel
