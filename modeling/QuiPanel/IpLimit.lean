import QuiPanel.Library.Latest
import Mathlib.Data.List.Dedup

namespace QuiPanel

namespace IpLimit

open KeyedDiff Latest List

structure IPWithTimestamp where
  ip : String
  timestamp : Int
  deriving DecidableEq

structure Client where
  email : String
  limitIP : Int
  deriving DecidableEq

structure Inbound where
  id : Int
  settings : String
  enable : Bool
  deriving DecidableEq

structure IpMap where
  entries : List IPWithTimestamp
  nodup : (entries.map (·.ip)).Nodup

structure InboundClientIps where
  clientEmail : String
  ips : IpMap

structure DB where
  inbounds : List Inbound
  byId : (inbounds.map (·.id)).Pairwise (· < ·)
  clientIps : List InboundClientIps
  oneRow : (clientIps.map (·.clientEmail)).Nodup

structure Env where
  like : String → String → Bool
  unmarshal : String → List Client
  iterate : List IPWithTimestamp → List IPWithTimestamp
  iterate_perm : ∀ l, (iterate l).Perm l

structure Clock where
  merge : Int
  partition : Int

structure Scan where
  enforce : Bool
  observedAreLive : Bool
  clock : String → Clock

def ipStaleAfterSeconds : Int := 1800

variable (env : Env)

def mergeClientIps (old new : List IPWithTimestamp) (staleCutoff : Int) (newAlwaysLive : Bool) :
    List IPWithTimestamp :=
  (new.filter fun e => newAlwaysLive || staleCutoff ≤ e.timestamp).foldl
    (offer (·.ip) (·.timestamp))
    (replaceAll (·.ip) [] (old.filter fun e => staleCutoff ≤ e.timestamp))

def selectIpsToBan (live : List IPWithTimestamp) (limit : Int) :
    List IPWithTimestamp × List IPWithTimestamp :=
  if limit ≤ 0 ∨ (live.length : Int) ≤ limit then (live, [])
  else
    let cutoff := live.length - limit.toNat
    (live.drop cutoff, live.take cutoff)

def countsAsLive (now : Int) (observedThisScan : List String) (e : IPWithTimestamp) : Bool :=
  observedThisScan.contains e.ip || now - e.timestamp < 120

def partitionLiveIps (now : Int) (ipMap : List IPWithTimestamp) (observedThisScan : List String) :
    List IPWithTimestamp × List IPWithTimestamp :=
  let entries := env.iterate ipMap
  (oldestFirst (·.timestamp) (entries.filter (countsAsLive now observedThisScan)),
    oldestFirst (·.timestamp) (entries.filter fun e => !countsAsLive now observedThisScan e))

def getInboundByEmail (db : DB) (clientEmail : String) : Option Inbound :=
  db.inbounds.find? fun ib => env.like ib.settings clientEmail

def limitIp (inbound : Inbound) (clientEmail : String) : Option Int :=
  ((env.unmarshal inbound.settings).find? (·.email = clientEmail)).map (·.limitIP)

def enforcedLimit (inbound : Inbound) (clientEmail : String) : Option Int :=
  (limitIp env inbound clientEmail).filter fun limit => 0 < limit && inbound.enable

theorem mergeClientIps_covers {old new : IpMap} {staleCutoff : Int} {newAlwaysLive : Bool} :
    Covers (·.ip) (·.timestamp)
      (fun e => (e ∈ old.entries ∧ staleCutoff ≤ e.timestamp) ∨
        (e ∈ new.entries ∧ (newAlwaysLive = true ∨ staleCutoff ≤ e.timestamp)))
      (mergeClientIps old.entries new.entries staleCutoff newAlwaysLive) := by
  have hold : Covers (·.ip) (·.timestamp) _
      (replaceAll (·.ip) [] (old.entries.filter fun e => staleCutoff ≤ e.timestamp)) :=
    covers_replaceAll Covers.nil (old.nodup.sublist (filter_sublist.map _)) fun _ _ _ h => h.elim
  refine (covers_offers hold).congr ?_
  intro e
  simp [mem_filter]

def splitIps (scan : Scan) (clientEmail : String) (old new : IpMap) :
    List IPWithTimestamp × List IPWithTimestamp :=
  let clock := scan.clock clientEmail
  partitionLiveIps env clock.partition
    (mergeClientIps old.entries new.entries (clock.merge - ipStaleAfterSeconds) scan.observedAreLive)
    (new.entries.map (·.ip))

theorem splitIps_perm (scan : Scan) (clientEmail : String) (old new : IpMap) :
    ((splitIps env scan clientEmail old new).1 ++ (splitIps env scan clientEmail old new).2).Perm
      (mergeClientIps old.entries new.entries ((scan.clock clientEmail).merge - ipStaleAfterSeconds)
        scan.observedAreLive) := by
  rw [splitIps, partitionLiveIps]
  refine (perm_oldestFirst.append perm_oldestFirst).trans ?_
  exact (filter_append_perm _ _).trans (env.iterate_perm _)

theorem selectIpsToBan_sublist (live : List IPWithTimestamp) (limit : Int) :
    (selectIpsToBan live limit).1.Sublist live := by
  rw [selectIpsToBan]
  split
  · exact List.Sublist.refl live
  · exact drop_sublist _ live

def keptIps (scan : Scan) (clientEmail : String) (old new : IpMap) (limit : Int) : IpMap where
  entries := (selectIpsToBan (splitIps env scan clientEmail old new).1 limit).1 ++
    (splitIps env scan clientEmail old new).2
  nodup := by
    have hall : ((splitIps env scan clientEmail old new).1 ++
        (splitIps env scan clientEmail old new).2).map (·.ip) |>.Nodup :=
      ((splitIps_perm env scan clientEmail old new).map _).nodup_iff.mpr mergeClientIps_covers.nodup
    exact hall.sublist (((selectIpsToBan_sublist _ limit).append_right _).map _)

def updateInboundClientIps (scan : Scan) (row : IpMap) (inbound : Inbound) (clientEmail : String)
    (new : IpMap) : IpMap × List IPWithTimestamp :=
  if inbound.settings = "" then (row, [])
  else
    match if scan.enforce then enforcedLimit env inbound clientEmail else none with
    | none => (new, [])
    | some limit =>
      (keptIps env scan clientEmail row new limit,
        (selectIpsToBan (splitIps env scan clientEmail row new).1 limit).2)

def saveClientIps (db : DB) (clientEmail : String) (ips : IpMap) : DB :=
  { db with
    clientIps := replace (·.clientEmail) db.clientIps ⟨clientEmail, ips⟩
    oneRow := nodup_replace db.oneRow }

def delInboundClientIps (db : DB) (clientEmail : String) : DB :=
  { db with
    clientIps := delete (·.clientEmail) db.clientIps clientEmail
    oneRow := db.oneRow.sublist (filter_sublist.map _) }

structure Job where
  db : DB
  ipLog : List (String × IPWithTimestamp)
  shouldCleanLog : Bool

def getInboundClientIps (db : DB) (clientEmail : String) : Option IpMap :=
  (lookup (·.clientEmail) db.clientIps clientEmail).map (·.ips)

def observe (scan : Scan) (job : Job) (seen : String × IpMap) : Job :=
  match getInboundByEmail env job.db seen.1 with
  | none => { job with db := delInboundClientIps job.db seen.1 }
  | some inbound =>
    match getInboundClientIps job.db seen.1 with
    | none => { job with db := saveClientIps job.db seen.1 seen.2 }
    | some row =>
      let verdict := updateInboundClientIps env scan row inbound seen.1 seen.2
      { db := saveClientIps job.db seen.1 verdict.1
        ipLog := job.ipLog ++ verdict.2.map fun e => (seen.1, e)
        shouldCleanLog := !verdict.2.isEmpty || job.shouldCleanLog }

structure Observations where
  emails : List (String × IpMap)
  nodup : (emails.map Prod.fst).Nodup

def processObserved (scan : Scan) (db : DB) (observed : Observations) : Job :=
  observed.emails.foldl (observe env scan) ⟨db, [], false⟩

section spec

variable (scan : Scan) (db : DB) (clientEmail : String) (row new : IpMap)

def sightings : List IPWithTimestamp :=
  let staleCutoff := (scan.clock clientEmail).merge - ipStaleAfterSeconds
  (row.entries.filter fun e => staleCutoff ≤ e.timestamp) ++
    new.entries.filter fun e => scan.observedAreLive || staleCutoff ≤ e.timestamp

def liveIps : List IPWithTimestamp :=
  have seen := sightings scan clientEmail row new
  (seen.filter fun e =>
    decide (∀ e' ∈ seen, e'.ip = e.ip → e'.timestamp ≤ e.timestamp) &&
      countsAsLive (scan.clock clientEmail).partition (new.entries.map (·.ip)) e).dedup

structure Enforced (live : List IPWithTimestamp) (limit : Int) (banned : List IPWithTimestamp)
    (after : Option IpMap) : Prop where
  nodup : banned.Nodup
  among : banned ⊆ live
  count : banned.length = live.length - limit.toNat
  oldest : ∀ e ∈ banned, ∀ e' ∈ live, e' ∉ banned → e.timestamp ≤ e'.timestamp
  kept : limit < live.length → ∃ ips, after = some ips ∧ ∀ e ∈ live, e ∉ banned → e ∈ ips.entries

def HasLimit (limit : Int) : Prop :=
  0 < limit ∧ ∃ ib ∈ db.inbounds, ib.enable = true ∧
    ∃ client ∈ env.unmarshal ib.settings, client.email = clientEmail ∧ client.limitIP = limit

def consultedLimit : Option Int :=
  (getInboundByEmail env db clientEmail).bind fun ib =>
    if ib.settings = "" then none else enforcedLimit env ib clientEmail

def Consulted (limit : Int) : Prop :=
  let n : Int := (liveIps scan clientEmail row new).length
  consultedLimit env db clientEmail = some limit ∨
    (n ≤ limit ∧ ∀ limit', consultedLimit env db clientEmail = some limit' → n ≤ limit')

def Job.banned (job : Job) : List IPWithTimestamp :=
  (job.ipLog.filter (·.1 = clientEmail)).map Prod.snd

end spec

section verdict

variable {env} {scan : Scan} {db : DB} {clientEmail : String} {row new : IpMap} {limit : Int}

theorem mem_sightings {e : IPWithTimestamp} : e ∈ sightings scan clientEmail row new ↔
    (e ∈ row.entries ∧ (scan.clock clientEmail).merge - ipStaleAfterSeconds ≤ e.timestamp) ∨
      (e ∈ new.entries ∧ (scan.observedAreLive = true ∨
        (scan.clock clientEmail).merge - ipStaleAfterSeconds ≤ e.timestamp)) := by
  simp [sightings, mem_filter]

theorem mem_liveIps {e : IPWithTimestamp} :
    e ∈ liveIps scan clientEmail row new ↔ e ∈ (splitIps env scan clientEmail row new).1 := by
  have hext : ∀ e e' : IPWithTimestamp, e.ip = e'.ip → e.timestamp = e'.timestamp → e = e' := by
    rintro ⟨ip, ts⟩ ⟨ip', ts'⟩ rfl rfl
    rfl
  rw [splitIps, partitionLiveIps, perm_oldestFirst.mem_iff, mem_filter,
    (env.iterate_perm _).mem_iff, mergeClientIps_covers.mem_iff hext]
  simp only [liveIps, IsLatest, mem_dedup, mem_filter, Bool.and_eq_true, decide_eq_true_iff,
    mem_sightings, and_assoc]

theorem liveIps_perm :
    (liveIps scan clientEmail row new).Perm (splitIps env scan clientEmail row new).1 := by
  have hall := ((splitIps_perm env scan clientEmail row new).map (·.ip)).nodup_iff.mpr
    mergeClientIps_covers.nodup
  rw [map_append] at hall
  refine (perm_ext_iff_of_nodup (nodup_dedup _) (List.Nodup.of_map (·.ip) ?_)).mpr
    fun e => mem_liveIps
  exact (nodup_append.mp hall).1

theorem selectIpsToBan_eq (hlimit : 0 < limit) (live : List IPWithTimestamp) :
    selectIpsToBan live limit =
      (live.drop (live.length - limit.toNat), live.take (live.length - limit.toNat)) := by
  rw [selectIpsToBan]
  split
  case isTrue h =>
    have hzero : live.length - limit.toNat = 0 := by omega
    rw [hzero, drop_zero, take_zero]
  case isFalse => rfl

theorem select_enforced (hlimit : 0 < limit) :
    Enforced (liveIps scan clientEmail row new) limit
      (selectIpsToBan (splitIps env scan clientEmail row new).1 limit).2
      (some (keptIps env scan clientEmail row new limit)) := by
  have hperm := @liveIps_perm env scan clientEmail row new
  have hsplit : ∀ e ∈ liveIps scan clientEmail row new, ∀ n,
      e ∉ (splitIps env scan clientEmail row new).1.take n →
        e ∈ (splitIps env scan clientEmail row new).1.drop n := by
    intro e he n hnot
    have hmem := hperm.mem_iff.mp he
    rw [← take_append_drop n (splitIps env scan clientEmail row new).1] at hmem
    exact (mem_append.mp hmem).resolve_left hnot
  rw [selectIpsToBan_eq hlimit]
  refine ⟨?_, ?_, ?_, ?_, ?_⟩
  · exact (hperm.nodup_iff.mp (nodup_dedup _)).sublist (take_sublist _ _)
  · exact fun e he => hperm.mem_iff.mpr (mem_of_mem_take he)
  · rw [length_take, hperm.length_eq]
    omega
  · intro e he e' he' hnot
    exact take_le_drop _ he (hsplit e' he' _ hnot)
  · intro _
    refine ⟨_, rfl, ?_⟩
    intro e he hnot
    refine mem_append.mpr (Or.inl ?_)
    rw [selectIpsToBan_eq hlimit]
    exact hsplit e he _ hnot

theorem enforced_none (live : List IPWithTimestamp) (after : Option IpMap) (hlimit : 0 < limit) :
    Enforced live limit [] after ↔ (live.length : Int) ≤ limit := by
  constructor
  · intro h
    have hcount := h.count
    rw [length_nil] at hcount
    omega
  · intro h
    refine ⟨nodup_nil, nil_subset _, ?_, ?_, ?_⟩
    · rw [length_nil]
      omega
    · exact fun e he => absurd he not_mem_nil
    · intro hover
      omega

variable (env) in
def verdict (scan : Scan) (db : DB) (clientEmail : String) (row new : IpMap) :
    Option IpMap × List IPWithTimestamp :=
  match getInboundByEmail env db clientEmail with
  | none => (none, [])
  | some inbound =>
    let r := updateInboundClientIps env scan row inbound clientEmail new
    (some r.1, r.2)

theorem verdict_unconsulted (h : consultedLimit env db clientEmail = none) :
    (verdict env scan db clientEmail row new).2 = [] := by
  rw [verdict]
  rw [consultedLimit] at h
  cases hib : getInboundByEmail env db clientEmail with
  | none => rfl
  | some ib =>
    rw [hib, Option.bind_some] at h
    by_cases hempty : ib.settings = ""
    · simp only [updateInboundClientIps, hempty, if_true]
    · rw [if_neg hempty] at h
      simp only [updateInboundClientIps, hempty, h, if_false, ite_self]

theorem verdict_consulted (henforce : scan.enforce = true)
    (h : consultedLimit env db clientEmail = some limit) :
    0 < limit ∧ verdict env scan db clientEmail row new =
      (some (keptIps env scan clientEmail row new limit),
        (selectIpsToBan (splitIps env scan clientEmail row new).1 limit).2) := by
  rw [consultedLimit] at h
  obtain ⟨ib, hib, h⟩ := Option.bind_eq_some_iff.mp h
  by_cases hempty : ib.settings = ""
  · rw [if_pos hempty] at h
    cases h
  · rw [if_neg hempty] at h
    constructor
    · rw [enforcedLimit, Option.filter_eq_some_iff] at h
      simp only [Bool.and_eq_true, decide_eq_true_eq] at h
      exact h.2.1
    · simp only [verdict, hib, updateInboundClientIps, hempty, h, henforce, if_true, if_false]

theorem verdict_enforced_iff (henforce : scan.enforce = true) (hlimit : 0 < limit) :
    Enforced (liveIps scan clientEmail row new) limit
        (verdict env scan db clientEmail row new).2 (verdict env scan db clientEmail row new).1 ↔
      Consulted env scan db clientEmail row new limit := by
  rw [Consulted]
  cases hconsulted : consultedLimit env db clientEmail with
  | none =>
    rw [verdict_unconsulted hconsulted, enforced_none _ _ hlimit]
    simp
  | some limit' =>
    obtain ⟨hlimit', hverdict⟩ := @verdict_consulted env scan db clientEmail row new limit' henforce hconsulted
    have hselect := @select_enforced env scan clientEmail row new limit' hlimit'
    have hcount := hselect.count
    rw [hverdict]
    simp only [Option.some.injEq, forall_eq']
    constructor
    · intro h
      have hcount' := h.count
      by_cases hsame : limit' = limit
      · exact Or.inl hsame
      · right
        omega
    · rintro (rfl | ⟨hle, hle'⟩)
      · exact hselect
      · have hnone : (selectIpsToBan (splitIps env scan clientEmail row new).1 limit').2 = [] := by
          apply eq_nil_of_length_eq_zero
          omega
        rw [hnone]
        exact (enforced_none _ _ hlimit).mpr hle

end verdict

section scanning

variable {env} {scan : Scan} {db : DB} {observed : Observations} {clientEmail : String}
variable {row new : IpMap} {limit : Int}

theorem observe_frame {job : Job} {seen : String × IpMap} (h : seen.1 ≠ clientEmail) :
    (observe env scan job seen).db.inbounds = job.db.inbounds ∧
      getInboundClientIps (observe env scan job seen).db clientEmail =
        getInboundClientIps job.db clientEmail ∧
      (observe env scan job seen).banned clientEmail = job.banned clientEmail := by
  have hsave : ∀ ips, getInboundClientIps (saveClientIps job.db seen.1 ips) clientEmail =
      getInboundClientIps job.db clientEmail := by
    intro ips
    simp only [getInboundClientIps, saveClientIps, lookup_replace, h, if_false]
  have hdel : getInboundClientIps (delInboundClientIps job.db seen.1) clientEmail =
      getInboundClientIps job.db clientEmail := by
    simp only [getInboundClientIps, delInboundClientIps, lookup_delete, Ne.symm h, if_false]
  rw [observe]
  split
  · exact ⟨rfl, hdel, rfl⟩
  · split
    · exact ⟨rfl, hsave _, rfl⟩
    · refine ⟨rfl, hsave _, ?_⟩
      simp [Job.banned, filter_append, filter_map, Function.comp_def, h]

theorem observed_frame {seen : List (String × IpMap)} {job : Job}
    (h : clientEmail ∉ seen.map Prod.fst) :
    (seen.foldl (observe env scan) job).db.inbounds = job.db.inbounds ∧
      getInboundClientIps (seen.foldl (observe env scan) job).db clientEmail =
        getInboundClientIps job.db clientEmail ∧
      (seen.foldl (observe env scan) job).banned clientEmail = job.banned clientEmail := by
  induction seen generalizing job with
  | nil => exact ⟨rfl, rfl, rfl⟩
  | cons s seen ih =>
    rw [map_cons, mem_cons, not_or] at h
    obtain ⟨hinbounds, hrow, hbanned⟩ := @observe_frame env scan clientEmail job s (Ne.symm h.1)
    obtain ⟨hinbounds', hrow', hbanned'⟩ := @ih (observe env scan job s) h.2
    exact ⟨hinbounds'.trans hinbounds, hrow'.trans hrow, hbanned'.trans hbanned⟩

theorem observe_verdict {job : Job} (hinbounds : job.db.inbounds = db.inbounds)
    (hrow : getInboundClientIps job.db clientEmail = some row)
    (hbanned : job.banned clientEmail = []) :
    getInboundClientIps (observe env scan job (clientEmail, new)).db clientEmail =
        (verdict env scan db clientEmail row new).1 ∧
      (observe env scan job (clientEmail, new)).banned clientEmail =
        (verdict env scan db clientEmail row new).2 := by
  have hlook : getInboundByEmail env job.db clientEmail = getInboundByEmail env db clientEmail := by
    rw [getInboundByEmail, getInboundByEmail, hinbounds]
  rw [observe, verdict, hlook]
  cases getInboundByEmail env db clientEmail with
  | none =>
    refine ⟨?_, hbanned⟩
    simp only [getInboundClientIps, delInboundClientIps, lookup_delete, if_true, Option.map_none]
  | some inbound =>
    simp only [hrow]
    constructor
    · simp only [getInboundClientIps, saveClientIps, lookup_replace, if_true, Option.map_some]
    · simp only [Job.banned] at hbanned ⊢
      simp [filter_append, hbanned, filter_map, Function.comp_def]

theorem processObserved_verdict (hseen : (clientEmail, new) ∈ observed.emails)
    (hrow : getInboundClientIps db clientEmail = some row) :
    getInboundClientIps (processObserved env scan db observed).db clientEmail =
        (verdict env scan db clientEmail row new).1 ∧
      (processObserved env scan db observed).banned clientEmail =
        (verdict env scan db clientEmail row new).2 := by
  obtain ⟨before, after, hsplit⟩ := append_of_mem hseen
  have hnodup := observed.nodup
  rw [hsplit, map_append, map_cons, nodup_append, nodup_cons] at hnodup
  have hbefore : clientEmail ∉ before.map Prod.fst := fun hmem =>
    hnodup.2.2 _ hmem _ mem_cons_self rfl
  rw [processObserved, hsplit, foldl_append, foldl_cons]
  obtain ⟨hinbounds, hsame, hnone⟩ := @observed_frame env scan clientEmail before ⟨db, [], false⟩ hbefore
  obtain ⟨hafter, hbanned⟩ := @observe_verdict env scan db clientEmail row new _ hinbounds
    (hsame.trans hrow) hnone
  obtain ⟨_, hlater, hlater'⟩ := @observed_frame env scan clientEmail after
    (observe env scan (before.foldl (observe env scan) ⟨db, [], false⟩) (clientEmail, new)) hnodup.2.1.1
  exact ⟨hlater.trans hafter, hlater'.trans hbanned⟩

def bobSettings : String := "\x7b\"clients\":[\x7b\"email\":\"bob\",\"limitIp\":1\x7d]\x7d"

def bobbySettings : String := "\x7b\"clients\":[\x7b\"email\":\"bobby\",\"limitIp\":0\x7d]\x7d"

def sampleEnv : Env where
  like settings email := settings.toList.tails.any email.toList.isPrefixOf
  unmarshal settings :=
    if settings = bobbySettings then [⟨"bobby", 0⟩]
    else if settings = bobSettings then [⟨"bob", 1⟩]
    else []
  iterate := id
  iterate_perm _ := List.Perm.refl _

def twoAddresses : IpMap := ⟨[⟨"10.0.0.1", 100⟩, ⟨"10.0.0.2", 200⟩], by decide⟩

def emptyRow : IpMap := ⟨[], nodup_nil⟩

def bobSeen : Observations := ⟨[("bob", twoAddresses)], by decide⟩

def liveScan : Scan := ⟨true, true, fun _ => ⟨200, 200⟩⟩

def aloneDB : DB := ⟨[⟨2, bobSettings, true⟩], by decide, [⟨"bob", emptyRow⟩], by decide⟩

def sharedDB : DB :=
  ⟨[⟨1, bobbySettings, true⟩, ⟨2, bobSettings, true⟩], by decide, [⟨"bob", emptyRow⟩], by decide⟩

end scanning

end IpLimit

end QuiPanel
