import QuiPanel.OddInbound
import QuiPanel.Library.Tally

namespace QuiPanel

namespace Subscription

open List

section header

structure ClientLimits where
  email : String
  totalGB : Int
  expiryTime : Int

structure Usage where
  now : Int
  rows : List ClientTraffic
  records : List ClientLimits
  rowsApart : (rows.map (·.email)).Nodup
  recordsApart : (records.map (·.email)).Nodup

structure Aggregate where
  up : Int
  down : Int
  total : Int
  expiryTime : Int
  deriving DecidableEq

def subscriptionExpiryFromClient (now expiryTime : Int) : Int :=
  if 0 < expiryTime then expiryTime else if expiryTime < 0 then now + -expiryTime else 0

variable (u : Usage)

def Usage.limits (email : String) : Option ClientLimits := u.records.find? (·.email = email)

def Usage.totalOf (row : ClientTraffic) : Int :=
  match u.limits row.email with
  | some lim => if row.total = 0 then lim.totalGB else row.total
  | none => row.total

def Usage.expiryOf (row : ClientTraffic) : Int :=
  subscriptionExpiryFromClient u.now
    (match u.limits row.email with
      | some lim => if row.expiryTime = 0 then lim.expiryTime else row.expiryTime
      | none => row.expiryTime)

def aggregateRow (agg : Option Aggregate) (row : ClientTraffic) : Option Aggregate :=
  match agg with
  | none => some ⟨row.up, row.down, u.totalOf row, u.expiryOf row⟩
  | some agg => some
    { up := agg.up + row.up
      down := agg.down + row.down
      total := if agg.total = 0 ∨ u.totalOf row = 0 then 0 else agg.total + u.totalOf row
      expiryTime := if u.expiryOf row ≠ agg.expiryTime then 0 else agg.expiryTime }

def Usage.selected (emails : List String) : List ClientTraffic := u.rows.filter (·.email ∈ emails)

def aggregateTrafficByEmails (order : List ClientTraffic → List ClientTraffic) (emails : List String) : Aggregate :=
  ((order (u.selected emails)).foldl (aggregateRow u) none).getD ⟨0, 0, 0, 0⟩

end header

section collectors

variable (env : Env) (remote : Remote) (d : Int → String → Draw) (db : DB) (subId : String)

structure Collected where
  empty : Bool
  emails : List String

def subscribed : List String :=
  (getInboundsBySubId db subId).flatMap fun ib => (matchingClients env ib subId).map (·.email)

def rawOwners : Go (List String) := do
  let owners ← (db.externalLinks subId).mapM fun ext => do
    let links ← (expandEntry remote ext).mapM fun el => applyRemarkToLink remote el.1 el.2
    pure ((links.filter (· ≠ "")).map fun _ => ext.email)
  pure owners.flatten

def jsonOwners : List String :=
  (db.externalLinks subId).flatMap fun ext =>
    ((expandEntry remote ext).filter fun el => (parseExternalLink remote el.1).isSome).map fun _ => ext.email

def externalOwners : List String :=
  (db.externalLinks subId).flatMap fun ext => (expandEntry remote ext).map fun _ => ext.email

def clashOwners : Go (List String) := do
  let proxies ← (externalNames remote db subId).zipIdx.mapM fun l =>
    clashProxyFromExternal env (d (-1) (toString l.2)) remote l.1.1 l.1.2
  pure (((externalOwners remote db subId).zip proxies).filterMap fun p => p.2.map fun _ => p.1)

inductive Format
  | raw
  | json
  | clash

def collect : Format → Go Collected
  | .raw => do
    let parts ← getSubs env remote d db subId
    let owners ← rawOwners remote db subId
    pure ⟨parts.1.isEmpty && parts.2.isEmpty, subscribed env db subId ++ owners⟩
  | .json => do
    let parts ← getJson env remote d db subId
    pure ⟨parts.1.isEmpty && parts.2.isEmpty, subscribed env db subId ++ jsonOwners remote db subId⟩
  | .clash => do
    let parts ← getClash env remote d db subId
    let owners ← clashOwners env remote d db subId
    pure ⟨parts.1.isEmpty && parts.2.isEmpty, subscribed env db subId ++ owners⟩

def userInfo (u : Usage) (order : List ClientTraffic → List ClientTraffic) (f : Format) : Go (Option Aggregate) := do
  let found ← collect env remote d db subId f
  pure (if found.empty then none else some (aggregateTrafficByEmails u order found.emails))

end collectors

section specification

variable (env : Env) (remote : Remote) (d : Int → String → Draw) (db : DB) (subId : String) (u : Usage)

def Reorders (order : List ClientTraffic → List ClientTraffic) : Prop := ∀ rows, (order rows).Perm rows

def covered : List String := (subscribed env db subId ++ (db.externalLinks subId).map (·.email)).dedup

def Usage.quota (email : String) : Int :=
  match u.rows.find? (·.email = email) with
  | some row => u.totalOf row
  | none => ((u.limits email).map (·.totalGB)).getD 0

def Usage.expiry (email : String) : Int :=
  match u.rows.find? (·.email = email) with
  | some row => u.expiryOf row
  | none => subscriptionExpiryFromClient u.now (((u.limits email).map (·.expiryTime)).getD 0)

structure Truthful : Prop where
  allowance : ∀ f order h, Reorders order → userInfo env remote d db subId u order f = .ok (some h) →
    h.total = Tally.allowance ((covered env db subId).map u.quota) ∧
      h.expiryTime = Tally.shared ((covered env db subId).map u.expiry)
  same : ∀ f g order order' h h', Reorders order → Reorders order' →
    userInfo env remote d db subId u order f = .ok (some h) →
    userInfo env remote d db subId u order' g = .ok (some h') → h = h'

def Lists (f : Format) (emails : List String) : Prop := collect env remote d db subId f = .ok ⟨false, emails⟩

def Usage.counted (emails : List String) : List String := (u.selected emails).map (·.email)

def missed (emails : List String) : List String := (covered env db subId).filter (· ∉ u.counted emails)

def Usage.only (emails emails' : List String) : List ClientTraffic :=
  (u.selected emails).filter (·.email ∉ emails')

structure Sound : Prop where
  quotas : ∀ f emails, Lists env remote d db subId f emails →
    Tally.Exhausts ((u.counted emails).map u.quota) ((missed env db subId u emails).map u.quota)
  expiries : ∀ f emails, Lists env remote d db subId f emails →
    Tally.Joins ((u.counted emails).map u.expiry) ((missed env db subId u emails).map u.expiry)
  usage : ∀ f g emails emails', Lists env remote d db subId f emails → Lists env remote d db subId g emails' →
    ((u.only emails emails').map (·.up)).sum = ((u.only emails' emails).map (·.up)).sum ∧
      ((u.only emails emails').map (·.down)).sum = ((u.only emails' emails).map (·.down)).sum

end specification

section folding

variable {u : Usage} {rows rows' : List ClientTraffic} {emails emails' : List String} {email : String}

theorem aggregate_some (rows : List ClientTraffic) (agg : Aggregate) :
    rows.foldl (aggregateRow u) (some agg) = some
      { up := agg.up + (rows.map (·.up)).sum
        down := agg.down + (rows.map (·.down)).sum
        total := (rows.map u.totalOf).foldl Tally.add agg.total
        expiryTime := (rows.map u.expiryOf).foldl Tally.agree agg.expiryTime } := by
  induction rows generalizing agg with
  | nil => simp
  | cons row rows ih =>
    rw [foldl_cons, aggregateRow, ih]
    simp only [map_cons, sum_cons, foldl_cons, ← add_assoc, Tally.add, Tally.agree, ne_eq, ite_not]

theorem aggregate_eq (rows : List ClientTraffic) : (rows.foldl (aggregateRow u) none).getD ⟨0, 0, 0, 0⟩ =
    ⟨(rows.map (·.up)).sum, (rows.map (·.down)).sum, Tally.total (rows.map u.totalOf),
      Tally.common (rows.map u.expiryOf)⟩ := by
  cases rows with
  | nil => rfl
  | cons row rows =>
    rw [foldl_cons, aggregateRow, aggregate_some]
    rfl

variable {row : ClientTraffic}

theorem find_row (h : row ∈ u.rows) : u.rows.find? (·.email = row.email) = some row :=
  (KeyedDiff.lookup_some u.rowsApart).mpr ⟨h, rfl⟩

theorem quota_row (h : row ∈ u.rows) : u.quota row.email = u.totalOf row := by
  rw [Usage.quota, find_row h]

theorem expiry_row (h : row ∈ u.rows) : u.expiry row.email = u.expiryOf row := by
  rw [Usage.expiry, find_row h]

theorem selected_rows (h : row ∈ u.selected emails) : row ∈ u.rows ∧ row.email ∈ emails := by
  simpa [Usage.selected] using h

theorem counted_quotas (u : Usage) (emails : List String) :
    (u.counted emails).map u.quota = (u.selected emails).map u.totalOf := by
  rw [Usage.counted, map_map]
  exact map_congr_left fun row hrow => quota_row (selected_rows hrow).1

theorem counted_expiries (u : Usage) (emails : List String) :
    (u.counted emails).map u.expiry = (u.selected emails).map u.expiryOf := by
  rw [Usage.counted, map_map]
  exact map_congr_left fun row hrow => expiry_row (selected_rows hrow).1

theorem counted_nodup (u : Usage) (emails : List String) : (u.counted emails).Nodup :=
  u.rowsApart.sublist (filter_sublist.map _)

theorem mem_counted (h : email ∈ u.counted emails) : email ∈ emails := by
  obtain ⟨row, hrow, rfl⟩ := mem_map.mp h
  exact (selected_rows hrow).2

theorem only_sum (u : Usage) (field : ClientTraffic → Int) (emails emails' : List String) :
    ((u.selected emails).map field).sum = ((u.selected emails').map field).sum ↔
      ((u.only emails emails').map field).sum = ((u.only emails' emails).map field).sum := by
  have hsplit : ∀ p q : ClientTraffic → Bool, ((u.rows.filter p).map field).sum =
      ((u.rows.filter fun row => p row && q row).map field).sum +
        (((u.rows.filter p).filter fun row => !q row).map field).sum := by
    intro p q
    rw [filter_filter]
    induction u.rows with
    | nil => rfl
    | cons row rows ih =>
      cases hp : p row <;> cases hq : q row <;> simp [hp, hq, ih] <;> omega
  have hleft := hsplit (fun row => decide (row.email ∈ emails)) fun row => decide (row.email ∈ emails')
  have hright := hsplit (fun row => decide (row.email ∈ emails')) fun row => decide (row.email ∈ emails)
  have hboth : (u.rows.filter fun row => decide (row.email ∈ emails') && decide (row.email ∈ emails)) =
      u.rows.filter fun row => decide (row.email ∈ emails) && decide (row.email ∈ emails') :=
    filter_congr fun row _ => Bool.and_comm _ _
  rw [hboth] at hright
  simp only [Usage.only, Usage.selected, decide_not]
  rw [hleft, hright]
  exact ⟨fun h => by omega, fun h => by omega⟩

theorem reorder_exists {field : ClientTraffic → Int} {zs : List Int} (h : zs.Perm (rows.map field)) :
    ∃ order, Reorders order ∧ (order rows).map field = zs := by
  have hcomp : Relation.Comp (· = List.map field ·) List.Perm zs rows := by
    rw [eq_map_comp_perm]
    exact h
  obtain ⟨rows', hmap, hperm⟩ := hcomp
  have hfield := congrArg (List.map field) (if_pos (rfl : rows = rows) : (if rows = rows then rows' else rows) = rows')
  refine ⟨fun l => if l = rows then rows' else l, fun l => ?_, hfield.trans hmap.symm⟩
  dsimp only
  split
  case isTrue hl => exact hl ▸ hperm
  case isFalse => exact List.Perm.refl l

end folding

section collecting

open Outcome

variable {env : Env} {remote : Remote} {d : Int → String → Draw} {db : DB} {subId : String} {u : Usage}
variable {f g : Format} {emails emails' owners : List String} {email : String}
variable {order order' : List ClientTraffic → List ClientTraffic}

theorem rawOwners_linked (h : rawOwners remote db subId = .ok owners) (he : email ∈ owners) :
    email ∈ (db.externalLinks subId).map (·.email) := by
  obtain ⟨parts, hparts, hok⟩ := bind_ok.mp h
  obtain rfl := Except.ok.inj hok
  obtain ⟨part, hpart, he⟩ := mem_flatten.mp he
  obtain ⟨ext, hext, hone⟩ := mem_mapM hparts part hpart
  obtain ⟨links, -, hone⟩ := bind_ok.mp hone
  obtain rfl := Except.ok.inj hone
  obtain ⟨link, -, rfl⟩ := mem_map.mp he
  exact mem_map_of_mem hext

theorem jsonOwners_linked (he : email ∈ jsonOwners remote db subId) :
    email ∈ (db.externalLinks subId).map (·.email) := by
  obtain ⟨ext, hext, he⟩ := mem_flatMap.mp he
  obtain ⟨link, -, rfl⟩ := mem_map.mp he
  exact mem_map_of_mem hext

theorem clashOwners_linked (h : clashOwners env remote d db subId = .ok owners) (he : email ∈ owners) :
    email ∈ (db.externalLinks subId).map (·.email) := by
  obtain ⟨proxies, -, hok⟩ := bind_ok.mp h
  obtain rfl := Except.ok.inj hok
  obtain ⟨p, hp, hsome⟩ := mem_filterMap.mp he
  obtain ⟨proxy, -, rfl⟩ := Option.map_eq_some_iff.mp hsome
  obtain ⟨ext, hext, howner⟩ := mem_flatMap.mp (of_mem_zip hp).1
  obtain ⟨link, -, heq⟩ := mem_map.mp howner
  exact heq ▸ mem_map_of_mem hext

theorem lists_split (h : Lists env remote d db subId f emails) :
    ∃ owners, emails = subscribed env db subId ++ owners ∧
      ∀ email ∈ owners, email ∈ (db.externalLinks subId).map (·.email) := by
  cases f with
  | raw =>
    obtain ⟨parts, -, h⟩ := bind_ok.mp h
    obtain ⟨owners, howners, h⟩ := bind_ok.mp h
    exact ⟨owners, (congrArg Collected.emails (Except.ok.inj h)).symm, fun _ => rawOwners_linked howners⟩
  | json =>
    obtain ⟨parts, -, h⟩ := bind_ok.mp h
    exact ⟨_, (congrArg Collected.emails (Except.ok.inj h)).symm, fun _ => jsonOwners_linked⟩
  | clash =>
    obtain ⟨parts, -, h⟩ := bind_ok.mp h
    obtain ⟨owners, howners, h⟩ := bind_ok.mp h
    exact ⟨owners, (congrArg Collected.emails (Except.ok.inj h)).symm, fun _ => clashOwners_linked howners⟩

theorem lists_covered (h : Lists env remote d db subId f emails) (he : email ∈ emails) :
    email ∈ covered env db subId := by
  obtain ⟨owners, rfl, howners⟩ := lists_split h
  rw [covered, mem_dedup, mem_append]
  exact (mem_append.mp he).imp id (howners email)

theorem covered_perm (u : Usage) (h : Lists env remote d db subId f emails) :
    (covered env db subId).Perm (u.counted emails ++ missed env db subId u emails) := by
  have hcovered := nodup_dedup (subscribed env db subId ++ (db.externalLinks subId).map (·.email))
  have hapart : (u.counted emails).Disjoint (missed env db subId u emails) := by
    intro email hcounted hmissed
    exact of_decide_eq_true (mem_filter.mp hmissed).2 hcounted
  have hparts := (counted_nodup u emails).append (hcovered.filter _) hapart
  refine (perm_ext_iff_of_nodup hcovered hparts).mpr fun email => ?_
  simp only [mem_append, mem_filter, decide_eq_true_eq]
  constructor
  · intro he
    by_cases hcounted : email ∈ u.counted emails
    · exact .inl hcounted
    · exact .inr ⟨he, hcounted⟩
  · rintro (hcounted | ⟨he, -⟩)
    · exact lists_covered h (mem_counted hcounted)
    · exact he

theorem userInfo_some {header : Aggregate} : userInfo env remote d db subId u order f = .ok (some header) ↔
    ∃ emails, Lists env remote d db subId f emails ∧ header = aggregateTrafficByEmails u order emails := by
  rw [userInfo, bind_ok]
  constructor
  · rintro ⟨found, hfound, h⟩
    have hsome := Except.ok.inj h
    cases hempty : found.empty with
    | true => simp [hempty] at hsome
    | false =>
      rw [hempty] at hsome
      exact ⟨found.emails, by rw [Lists, hfound, ← hempty], (Option.some.inj hsome).symm⟩
  · rintro ⟨emails, hlists, rfl⟩
    exact ⟨_, hlists, rfl⟩

theorem header_eq (horder : Reorders order) (emails : List String) : aggregateTrafficByEmails u order emails =
    ⟨((u.selected emails).map (·.up)).sum, ((u.selected emails).map (·.down)).sum,
      Tally.total ((order (u.selected emails)).map u.totalOf),
      Tally.shared ((u.selected emails).map u.expiryOf)⟩ := by
  have hperm := horder (u.selected emails)
  rw [aggregateTrafficByEmails, aggregate_eq, (hperm.map _).sum_eq, (hperm.map _).sum_eq, Tally.common_eq_shared,
    Tally.shared_perm (hperm.map _)]

theorem reorders_id : Reorders id := fun rows => List.Perm.refl rows

end collecting

section telling

variable {env : Env} {remote : Remote} {d : Int → String → Draw} {db : DB} {subId : String} {u : Usage}
variable {f : Format} {emails : List String}

variable (h : Lists env remote d db subId f emails)

include h

theorem quotas_covered :
    Tally.allowance ((covered env db subId).map u.quota) =
      Tally.allowance ((u.counted emails).map u.quota ++ (missed env db subId u emails).map u.quota) := by
  rw [Tally.allowance_perm ((covered_perm u h).map u.quota), map_append]

theorem expiries_covered :
    Tally.shared ((covered env db subId).map u.expiry) =
      Tally.shared ((u.counted emails).map u.expiry ++ (missed env db subId u emails).map u.expiry) := by
  rw [Tally.shared_perm ((covered_perm u h).map u.expiry), map_append]

theorem total_truthful_iff :
    (∀ order, Reorders order →
      Tally.total ((order (u.selected emails)).map u.totalOf) =
        Tally.allowance ((covered env db subId).map u.quota)) ↔
      Tally.Exhausts ((u.counted emails).map u.quota) ((missed env db subId u emails).map u.quota) := by
  rw [← Tally.total_eq_allowance_iff, quotas_covered h, counted_quotas]
  constructor
  · intro htotal zs hzs
    obtain ⟨order, horder, rfl⟩ := reorder_exists hzs
    exact htotal order horder
  · intro htotal order horder
    exact htotal _ ((horder _).map _)

theorem expiry_truthful_iff :
    Tally.shared ((u.selected emails).map u.expiryOf) = Tally.shared ((covered env db subId).map u.expiry) ↔
      Tally.Joins ((u.counted emails).map u.expiry) ((missed env db subId u emails).map u.expiry) := by
  rw [← Tally.shared_append_iff, expiries_covered h, counted_expiries]

variable {order : List ClientTraffic → List ClientTraffic}

theorem total_same (hsound : Sound env remote d db subId u)
    (horder : Reorders order) :
    (aggregateTrafficByEmails u order emails).total = Tally.allowance ((covered env db subId).map u.quota) := by
  rw [header_eq horder]
  exact (total_truthful_iff h).mpr (hsound.quotas f emails h) order horder

theorem expiry_same (hsound : Sound env remote d db subId u)
    (horder : Reorders order) :
    (aggregateTrafficByEmails u order emails).expiryTime = Tally.shared ((covered env db subId).map u.expiry) := by
  rw [header_eq horder]
  exact (expiry_truthful_iff h).mpr (hsound.expiries f emails h)

omit h

theorem truthful_of_sound (hsound : Sound env remote d db subId u) : Truthful env remote d db subId u where
  allowance := by
    intro f order header horder h
    obtain ⟨emails, hlists, rfl⟩ := userInfo_some.mp h
    exact ⟨total_same hlists hsound horder, expiry_same hlists hsound horder⟩
  same := by
    intro f g order order' header header' horder horder' h h'
    obtain ⟨emails, hlists, rfl⟩ := userInfo_some.mp h
    obtain ⟨emails', hlists', rfl⟩ := userInfo_some.mp h'
    obtain ⟨hup, hdown⟩ := hsound.usage f g emails emails' hlists hlists'
    have htotal := (total_same hlists hsound horder).trans (total_same hlists' hsound horder').symm
    have hexpiry := (expiry_same hlists hsound horder).trans (expiry_same hlists' hsound horder').symm
    rw [← only_sum] at hup hdown
    rw [header_eq horder, header_eq horder'] at htotal hexpiry ⊢
    rw [Aggregate.mk.injEq]
    exact ⟨hup, hdown, htotal, hexpiry⟩

theorem sound_of_truthful (htrue : Truthful env remote d db subId u) : Sound env remote d db subId u where
  quotas := by
    intro f emails h
    refine (total_truthful_iff h).mp fun order horder => ?_
    have htotal := (htrue.allowance f order _ horder (userInfo_some.mpr ⟨emails, h, rfl⟩)).1
    rwa [header_eq horder] at htotal
  expiries := by
    intro f emails h
    have hexpiry := (htrue.allowance f id _ reorders_id (userInfo_some.mpr ⟨emails, h, rfl⟩)).2
    rw [header_eq reorders_id] at hexpiry
    exact (expiry_truthful_iff h).mp hexpiry
  usage := by
    intro f g emails emails' h h'
    have hsame := htrue.same f g id id _ _ reorders_id reorders_id (userInfo_some.mpr ⟨emails, h, rfl⟩)
      (userInfo_some.mpr ⟨emails', h', rfl⟩)
    rw [header_eq reorders_id, header_eq reorders_id, Aggregate.mk.injEq] at hsame
    exact ⟨(only_sum u _ emails emails').mp hsame.1, (only_sum u _ emails emails').mp hsame.2.1⟩

theorem header_truthful_iff : Truthful env remote d db subId u ↔ Sound env remote d db subId u :=
  ⟨sound_of_truthful, truthful_of_sound⟩

end telling

section rowless

def linkedDB : DB where
  inbounds := []
  fallbacks := []
  attached := []
  externalLinks _ := [⟨"link", "ss://a", "", "a", true⟩, ⟨"link", "ss://b", "", "b", true⟩]

def rowless : Usage where
  now := 0
  rows := [⟨"a", true, 1, 2, 10, 0⟩]
  records := [⟨"a", 10, 0⟩, ⟨"b", 5, 0⟩]
  rowsApart := by decide
  recordsApart := by decide

theorem rowless_client_uncounted : ¬ Truthful plainEnv offline (fun _ _ _ => 0) linkedDB "s1" rowless := by
  intro h
  have hheader : userInfo plainEnv offline (fun _ _ _ => 0) linkedDB "s1" rowless id .raw =
      .ok (some ⟨1, 2, 10, 0⟩) := by decide +kernel
  have htotal := (h.allowance .raw id _ reorders_id hheader).1
  have hallowance : Tally.allowance ((covered plainEnv linkedDB "s1").map rowless.quota) = 15 := by decide +kernel
  rw [hallowance] at htotal
  cases htotal

end rowless

end Subscription

end QuiPanel
