import QuiPanel.GlobalUsage

namespace QuiPanel

namespace AutoRenew

open Keyed Outcome Clients List
open Consumption (day due advance renewedExpiry dueRows renewalInbounds linkedInbounds found syncOne renewEntries
  renews renewRow)
open GlobalUsage (ClientGlobalTraffic clearGlobalTraffic)

structure Tables where
  db : DB
  globals : List ClientGlobalTraffic

structure Renewal extends Tables where
  clientsToAdd : List (Int × Client)

section renewing

variable (now : Int)

def renewed (t : ClientTraffic) : ClientTraffic :=
  { t with expiryTime := renewedExpiry now t, down := 0, up := 0, enable := true }

def renewClient (i : Int) (traffics : List ClientTraffic) (c : Client) :
    Client × List ClientTraffic × List (Int × Client) :=
  match traffics.find? (·.email = c.email) with
  | none => (c, traffics, [])
  | some traffic =>
    let c := { c with expiryTime := renewedExpiry now traffic, enable := c.enable || !traffic.enable }
    (c, traffics.map fun t => if t.email = c.email then renewed now t else t,
      if !traffic.enable then [(i, c)] else [])

def renewClients (i : Int) : List ClientTraffic → List Client →
    List Client × List ClientTraffic × List (Int × Client)
  | traffics, [] => ([], traffics, [])
  | traffics, c :: cs =>
    let first := renewClient now i traffics c
    let rest := renewClients i first.2.1 cs
    (first.1 :: rest.1, rest.2.1, first.2.2 ++ rest.2.2)

def renewAll : DB → List ClientTraffic → List Int → DB × List ClientTraffic × List (Int × Client)
  | db, traffics, [] => (db, traffics, [])
  | db, traffics, i :: is =>
    let here := renewClients now i traffics (db.settingsClients i)
    let rest := renewAll (saveClients db i here.1) here.2.1 is
    (rest.1, rest.2.1, here.2.2 ++ rest.2.2)

def refused (db : DB) (inbounds : List Int) : Bool :=
  inbounds.isEmpty || inbounds.any fun i => (db.clientsOf i).isNone

def autoRenewClients (s : Tables) : Renewal :=
  let traffics := dueRows s.db now
  let inbounds := renewalInbounds s.db now
  if traffics.isEmpty then ⟨s, []⟩
  -- settings without a clients array panic before anything is saved, and gorm refuses to save an empty slice
  else if refused s.db inbounds then ⟨s, []⟩
  else
    let outcome := renewAll now s.db traffics inbounds
    let saved := fun t => if due s.db now t then (outcome.2.1.find? (·.email = t.email)).getD t else t
    { db := { inbounds.foldl syncOne outcome.1 with traffics := s.db.traffics.map saved }
      globals := clearGlobalTraffic s.globals (traffics.map (·.email))
      clientsToAdd := outcome.2.2 }

def pushedOver (globals : List ClientGlobalTraffic) (t : ClientTraffic) : Bool :=
  globals.any fun g => g.email == t.email && decide (t.total ≤ g.up + g.down)

def disableInvalidClients (s : Tables) : DB :=
  Consumption.disableInvalidClients s.db ⟨now, now, pushedOver s.globals⟩

end renewing

section spec

def attached (db : DB) (email : String) : List Int := found db (linkedInbounds db [email])

def FirstHolder (db : DB) (email : String) (pre : List Int) : Prop := ∀ j ∈ pre, db.entries j email = []

structure LeastLater (now : Int) (t : ClientTraffic) (expiry : Int) : Prop where
  later : now < expiry
  step : ∃ k > 0, expiry = t.expiryTime + k * (t.reset * day)
  least : ∀ k > 0, now < t.expiryTime + k * (t.reset * day) → expiry ≤ t.expiryTime + k * (t.reset * day)

structure Renewed (now : Int) (s : Tables) (t : ClientTraffic) (t' : ClientTraffic) : Prop where
  found : (autoRenewClients now s).db.traffics.find? (·.email = t.email) = some t'
  cleared : t'.up = 0 ∧ t'.down = 0 ∧ t'.enable = true
  expiry : LeastLater now t t'.expiryTime
  entries : ∀ i ∈ attached s.db t.email, ∀ c ∈ (autoRenewClients now s).db.entries i t.email,
    c.expiryTime = t'.expiryTime ∧ c.enable = true
  readded : t.enable = false → ∀ i ∈ attached s.db t.email,
    ∃ c, (i, c) ∈ (autoRenewClients now s).clientsToAdd ∧ c.email = t.email
  spared : (disableInvalidClients now (autoRenewClients now s).toTables).traffics.find? (·.email = t.email) =
      some t' ∧
    ∀ i, (disableInvalidClients now (autoRenewClients now s).toTables).entries i t.email =
      (autoRenewClients now s).db.entries i t.email

structure Renewable (now : Int) (s : Tables) (t : ClientTraffic) : Prop where
  offGrid : ¬t.reset * day ∣ now - t.expiryTime
  readable : ∀ i ∈ renewalInbounds s.db now, s.db.clientsOf i ≠ none
  listed : ∃ i ∈ renewalInbounds s.db now, s.db.entries i t.email ≠ []
  enabled : ∀ pre i post, renewalInbounds s.db now = pre ++ i :: post → i ∈ attached s.db t.email →
    ∀ c cs, s.db.entries i t.email = c :: cs →
      (c.enable = true ∨ t.enable = false ∧ FirstHolder s.db t.email pre) ∧ ∀ c ∈ cs, c.enable = true
  readded : t.enable = false → ∀ pre i post, renewalInbounds s.db now = pre ++ i :: post →
    i ∈ attached s.db t.email → s.db.entries i t.email ≠ [] ∧ FirstHolder s.db t.email pre

end spec

section expiry

variable {now reset expiry k : Int} {n : Nat} {t : ClientTraffic}

theorem advance_done (h : now ≤ expiry) : advance reset now n expiry = expiry := by
  cases n with
  | zero => rfl
  | succ n => rw [advance, if_neg (by omega)]

theorem advance_step (reset now : Int) (n : Nat) (expiry : Int) :
    ∃ k : Nat, advance reset now n expiry = expiry + k * (reset * day) := by
  induction n generalizing expiry with
  | zero => exact ⟨0, by simp [advance]⟩
  | succ n ih =>
    rw [advance]
    split
    · obtain ⟨k, hk⟩ := ih (expiry + reset * day)
      refine ⟨k + 1, ?_⟩
      rw [hk]
      push_cast
      ring
    · exact ⟨0, by simp⟩

theorem advance_reaches (hreset : 0 < reset) (h : now - expiry ≤ n) : now ≤ advance reset now n expiry := by
  induction n generalizing expiry with
  | zero =>
    rw [advance]
    omega
  | succ n ih =>
    rw [advance]
    split
    · refine ih ?_
      have hday : 0 < reset * day := mul_pos hreset (by decide)
      omega
    · omega

theorem advance_least (hreset : 0 < reset) (hk : 0 ≤ k) (h : now ≤ expiry + k * (reset * day)) :
    advance reset now n expiry ≤ expiry + k * (reset * day) := by
  have hday : 0 < reset * day := mul_pos hreset (by decide)
  induction n generalizing expiry k with
  | zero =>
    rw [advance]
    have hnonneg := mul_nonneg hk hday.le
    omega
  | succ n ih =>
    rw [advance]
    split
    case isTrue hlate =>
      have hpos : 0 < k := by
        rcases hk.lt_or_eq with hk | rfl
        · exact hk
        · rw [zero_mul] at h
          omega
      have hsplit : expiry + k * (reset * day) = expiry + reset * day + (k - 1) * (reset * day) := by ring
      rw [hsplit] at h ⊢
      exact ih (by omega) h
    case isFalse =>
      have hnonneg := mul_nonneg hk hday.le
      omega

theorem renewedExpiry_reaches (hreset : 0 < t.reset) : now ≤ renewedExpiry now t :=
  advance_reaches hreset (Int.self_le_toNat _)

theorem renewed_twice (hreset : 0 < t.reset) : renewed now (renewed now t) = renewed now t := by
  have hsame : renewedExpiry now (renewed now t) = renewedExpiry now t := advance_done (renewedExpiry_reaches hreset)
  rw [renewed, hsame]
  rfl

theorem leastLater_iff (hreset : 0 < t.reset) (hdue : t.expiryTime ≤ now) :
    LeastLater now t (renewedExpiry now t) ↔ ¬t.reset * day ∣ now - t.expiryTime := by
  have hday : 0 < t.reset * day := mul_pos hreset (by decide)
  have hreach := @renewedExpiry_reaches now t hreset
  obtain ⟨n, hn⟩ := advance_step t.reset now (now - t.expiryTime).toNat t.expiryTime
  have hn : renewedExpiry now t = t.expiryTime + n * (t.reset * day) := hn
  constructor
  · rintro ⟨hlater, -, -⟩ ⟨q, hq⟩
    have hq' : now = t.expiryTime + q * (t.reset * day) := by
      rw [mul_comm]
      omega
    have hnonneg : 0 ≤ q := by
      by_contra hneg
      have := mul_neg_of_pos_of_neg hday (not_le.mp hneg)
      omega
    have hleast : renewedExpiry now t ≤ t.expiryTime + q * (t.reset * day) := advance_least hreset hnonneg hq'.le
    omega
  · intro hoff
    have hne : renewedExpiry now t ≠ now := by
      intro heq
      refine hoff ⟨n, ?_⟩
      rw [mul_comm]
      omega
    refine ⟨by omega, ⟨n, ?_, hn⟩, fun k hk hlater => ?_⟩
    · by_contra hzero
      have hzero : (n : Int) = 0 := by omega
      rw [hzero, zero_mul] at hn
      omega
    · exact advance_least hreset (by omega) hlater.le

end expiry

section running

variable {now : Int} {i : Int} {is : List Int} {rows : List ClientTraffic} {t : ClientTraffic} {c : Client}
  {cs : List Client} {e : String} {db : DB}

def renewedEntry (now : Int) (t : ClientTraffic) (c : Client) : Client :=
  { c with expiryTime := renewedExpiry now t, enable := c.enable || !t.enable }

def renewedEntries (now : Int) : ClientTraffic → List Client → List Client
  | _, [] => []
  | t, c :: cs => renewedEntry now t c :: renewedEntries now (renewed now t) cs

def rowAt (now : Int) (db : DB) (e : String) (t : ClientTraffic) (pre : List Int) : ClientTraffic :=
  if pre.all fun j => (db.entries j e).isEmpty then t else renewed now t

structure Swept (now : Int) (db : DB) (e : String) (t : ClientTraffic) (is : List Int)
    (out : DB × List ClientTraffic × List (Int × Client)) : Prop where
  untouched : ∀ j ∉ is, out.1.entries j e = db.entries j e
  entries : ∀ pre i post, is = pre ++ i :: post →
    out.1.entries i e = renewedEntries now (rowAt now db e t pre) (db.entries i e)
  row : out.2.1.find? (·.email = e) = some (rowAt now db e t is)
  added : ∀ i c, c.email = e → ((i, c) ∈ out.2.2 ↔ ∃ pre post, is = pre ++ i :: post ∧
    (rowAt now db e t pre).enable = false ∧
      (renewedEntries now (rowAt now db e t pre) (db.entries i e)).head? = some c)

theorem find_map {f : ClientTraffic → ClientTraffic} (hf : ∀ t, (f t).email = t.email) :
    (rows.map f).find? (·.email = e) = (rows.find? (·.email = e)).map f := by
  simp only [find?_map, Function.comp_def, hf]

theorem find_renewed (c : Client) :
    (rows.map fun t => if t.email = c.email then renewed now t else t).find? (·.email = e) =
      (rows.find? (·.email = e)).map fun t => if t.email = c.email then renewed now t else t := by
  refine find_map fun t => ?_
  split <;> rfl

theorem renewClient_own (hfind : rows.find? (·.email = c.email) = some t) :
    renewClient now i rows c = (renewedEntry now t c,
      rows.map (fun t => if t.email = c.email then renewed now t else t),
      if !t.enable then [(i, renewedEntry now t c)] else []) := by
  rw [renewClient, hfind]
  rfl

theorem renewClient_row_own (hfind : rows.find? (·.email = c.email) = some t) :
    (renewClient now i rows c).2.1.find? (·.email = c.email) = some (renewed now t) := by
  have hemail : t.email = c.email := by simpa using find?_some hfind
  rw [renewClient_own hfind, find_renewed, hfind, Option.map_some, if_pos hemail]

theorem renewClient_other (hother : c.email ≠ e) :
    (renewClient now i rows c).1.email = c.email ∧
      (renewClient now i rows c).2.1.find? (·.email = e) = rows.find? (·.email = e) ∧
      (renewClient now i rows c).2.2.filter (·.2.email == e) = [] := by
  cases hfind : rows.find? (·.email = c.email) with
  | none =>
    rw [renewClient, hfind]
    exact ⟨rfl, rfl, rfl⟩
  | some t =>
    rw [renewClient_own hfind]
    refine ⟨rfl, ?_, ?_⟩
    · rw [find_renewed]
      cases he : rows.find? (·.email = e) with
      | none => rfl
      | some t' =>
        have hemail : t'.email = e := by simpa using find?_some he
        rw [Option.map_some, if_neg (hemail ▸ Ne.symm hother)]
    · have hne : ((renewedEntry now t c).email == e) = false := beq_eq_false_iff_ne.mpr hother
      cases t.enable
      · simp [hne]
      · rfl

theorem renewClients_run (hreset : 0 < t.reset) (hfind : rows.find? (·.email = e) = some t) :
    (renewClients now i rows cs).1.filter (·.email == e) = renewedEntries now t (cs.filter (·.email == e)) ∧
    (renewClients now i rows cs).2.1.find? (·.email = e) =
      some (if (cs.filter (·.email == e)).isEmpty then t else renewed now t) ∧
    (renewClients now i rows cs).2.2.filter (·.2.email == e) =
      if t.enable then []
      else ((renewedEntries now t (cs.filter (·.email == e))).head?.map (i, ·)).toList := by
  induction cs generalizing rows t with
  | nil =>
    refine ⟨rfl, hfind, ?_⟩
    split <;> rfl
  | cons c cs ih =>
    rw [renewClients]
    dsimp only
    by_cases hown : c.email = e
    · subst hown
      have hrow := @renewClient_row_own now i rows t c hfind
      obtain ⟨hentries, hrows, hadded⟩ := ih (t := renewed now t) hreset hrow
      have hfirst := @renewClient_own now i rows t c hfind
      have hbeq : ((renewedEntry now t c).email == c.email) = true := beq_self_eq_true c.email
      have hcons : (c :: cs).filter (·.email == c.email) = c :: cs.filter (·.email == c.email) :=
        filter_cons_of_pos hbeq
      refine ⟨?_, ?_, ?_⟩
      · rw [filter_cons_of_pos (by rw [hfirst]; exact hbeq), hentries, hcons, hfirst]
        rfl
      · rw [hrows, renewed_twice hreset, ite_self, hcons]
        rfl
      · rw [filter_append, hadded, hcons, hfirst]
        cases t.enable
        · simp [hbeq, renewed, renewedEntries]
        · simp [renewed]
    · obtain ⟨hemail, hkept, hnone⟩ := @renewClient_other now i rows c e hown
      obtain ⟨hentries, hrows, hadded⟩ := ih hreset (hkept.trans hfind)
      have hcons : (c :: cs).filter (·.email == e) = cs.filter (·.email == e) :=
        filter_cons_of_neg (by simpa using hown)
      rw [hcons]
      refine ⟨?_, hrows, ?_⟩
      · rw [filter_cons_of_neg (by rw [hemail]; simpa using hown), hentries]
      · rw [filter_append, hnone, nil_append, hadded]

theorem saved_entries (h : db.inbounds.find i = none → cs = []) (j : Int) :
    (saveClients db i cs).entries j e = if j = i then cs.filter (·.email == e) else db.entries j e := by
  rw [DB.entries, DB.settingsClients, clientsOf_saveClients]
  split
  · cases hfind : db.inbounds.find i with
    | none =>
      rw [h hfind]
      rfl
    | some ib => rfl
  · rfl

variable {pre : List Int}

theorem rowAt_cons {db₁ : DB} (hreset : 0 < t.reset)
    (hsame : ∀ j ∈ pre, db₁.entries j e = db.entries j e) :
    rowAt now db e t (i :: pre) =
      rowAt now db₁ e (if (db.entries i e).isEmpty then t else renewed now t) pre := by
  have hall : (pre.all fun j => (db₁.entries j e).isEmpty) = pre.all fun j => (db.entries j e).isEmpty := by
    rw [Bool.eq_iff_iff, all_eq_true, all_eq_true]
    exact forall_congr' fun j => forall_congr' fun hj => by rw [hsame j hj]
  rw [rowAt, rowAt, all_cons, hall]
  cases (db.entries i e).isEmpty
  · simp [renewed_twice hreset]
  · simp

theorem renewAll_swept (hnodup : is.Nodup) (hreset : 0 < t.reset) (hfind : rows.find? (·.email = e) = some t) :
    Swept now db e t is (renewAll now db rows is) := by
  induction is generalizing db rows t with
  | nil =>
    refine ⟨fun _ _ => rfl, fun pre i post h => ?_, hfind, fun i c _ => iff_of_false not_mem_nil ?_⟩
    · cases pre <;> cases h
    · rintro ⟨pre, post, h, -⟩
      cases pre <;> cases h
  | cons i is ih =>
    obtain ⟨hi, hnodup⟩ := nodup_cons.mp hnodup
    obtain ⟨hentries, hrow, hadded⟩ := @renewClients_run now i rows t (db.settingsClients i) e hreset hfind
    have hblank : db.inbounds.find i = none → (renewClients now i rows (db.settingsClients i)).1 = [] := by
      intro hnone
      have hempty : db.settingsClients i = [] := by rw [DB.settingsClients, DB.clientsOf, hnone]; rfl
      rw [hempty]
      rfl
    rw [renewAll]
    generalize renewClients now i rows (db.settingsClients i) = here at hentries hrow hadded hblank ⊢
    have hsaved := @saved_entries i here.1 e db hblank
    have hother : ∀ j ≠ i, (saveClients db i here.1).entries j e = db.entries j e :=
      fun j hj => (hsaved j).trans (if_neg hj)
    have hhere : (saveClients db i here.1).entries i e = renewedEntries now t (db.entries i e) := by
      rw [hsaved i, if_pos rfl, hentries]
      rfl
    have hreset' : 0 < (if (db.entries i e).isEmpty then t else renewed now t).reset := by
      split <;> exact hreset
    have hrest : Swept now (saveClients db i here.1) e (if (db.entries i e).isEmpty then t else renewed now t) is
        (renewAll now (saveClients db i here.1) here.2.1 is) := ih hnodup hreset' hrow
    have hrowAt : ∀ pre, (∀ j ∈ pre, j ∈ is) → rowAt now db e t (i :: pre) =
        rowAt now (saveClients db i here.1) e (if (db.entries i e).isEmpty then t else renewed now t) pre :=
      fun pre hsub => rowAt_cons hreset fun j hj => hother j fun he => hi (he ▸ hsub j hj)
    have hfirst : rowAt now db e t [] = t := rfl
    have hlater : ∀ pre j post, is = pre ++ j :: post → rowAt now db e t (i :: pre) =
        rowAt now (saveClients db i here.1) e (if (db.entries i e).isEmpty then t else renewed now t) pre ∧
        (saveClients db i here.1).entries j e = db.entries j e := by
      intro pre j post h
      have hj : j ∈ is := h ▸ mem_append_right pre mem_cons_self
      exact ⟨hrowAt pre fun j' hj' => h ▸ mem_append_left _ hj', hother j fun he => hi (he ▸ hj)⟩
    refine ⟨fun j hj => ?_, fun pre j post h => ?_, ?_, fun j c hc => ?_⟩
    · obtain ⟨hji, hjs⟩ := not_or.mp (mt mem_cons.mpr hj)
      rw [hrest.untouched j hjs, hother j hji]
    · cases pre with
      | nil =>
        obtain ⟨rfl, -⟩ := List.cons.inj h
        rw [hrest.untouched _ hi, hhere, hfirst]
      | cons i' pre =>
        obtain ⟨rfl, hsplit⟩ := List.cons.inj h
        obtain ⟨hcur, hsame⟩ := hlater pre j post hsplit
        rw [hrest.entries pre j post hsplit, hcur, hsame]
    · rw [hrest.row, hrowAt is fun _ h => h]
    · have hin : (j, c) ∈ here.2.2 ↔
          j = i ∧ t.enable = false ∧ (renewedEntries now t (db.entries i e)).head? = some c := by
        have hfiltered : (j, c) ∈ here.2.2 ↔ (j, c) ∈ here.2.2.filter (·.2.email == e) := by
          rw [mem_filter]
          exact (and_iff_left (beq_iff_eq.mpr hc)).symm
        rw [hfiltered, hadded]
        cases t.enable with
        | true => simp
        | false =>
          rw [if_neg Bool.false_ne_true, Option.mem_toList, Option.map_eq_some_iff]
          constructor
          · rintro ⟨c', hhead, heq⟩
            cases heq
            exact ⟨rfl, rfl, hhead⟩
          · rintro ⟨rfl, -, hhead⟩
            exact ⟨c, hhead, rfl⟩
      rw [mem_append, hin, hrest.added j c hc]
      constructor
      · rintro (⟨rfl, henable, hhead⟩ | ⟨pre, post, h, henable, hhead⟩)
        · exact ⟨[], is, rfl, henable, hhead⟩
        · obtain ⟨hcur, hsame⟩ := hlater pre j post h
          rw [hsame, ← hcur] at hhead
          rw [← hcur] at henable
          exact ⟨i :: pre, post, congrArg (i :: ·) h, henable, hhead⟩
      · rintro ⟨pre, post, h, henable, hhead⟩
        cases pre with
        | nil =>
          obtain ⟨rfl, -⟩ := List.cons.inj h
          exact .inl ⟨rfl, henable, hhead⟩
        | cons i' pre =>
          obtain ⟨rfl, hsplit⟩ := List.cons.inj h
          obtain ⟨hcur, hsame⟩ := hlater pre j post hsplit
          rw [← hsame, hcur] at hhead
          rw [hcur] at henable
          exact .inr ⟨pre, post, hsplit, henable, hhead⟩

theorem rowAt_expiry (hreset : 0 < t.reset) (pre : List Int) :
    renewedExpiry now (rowAt now db e t pre) = renewedExpiry now t := by
  rw [rowAt]
  split
  · rfl
  · exact congrArg (·.expiryTime) (@renewed_twice now t hreset)

theorem rowAt_reset (pre : List Int) : (rowAt now db e t pre).reset = t.reset := by
  rw [rowAt]
  split <;> rfl

theorem firstHolder_iff :
    FirstHolder db e pre ↔ (pre.all fun j => (db.entries j e).isEmpty) = true := by
  simp only [FirstHolder, all_eq_true, List.isEmpty_iff]

theorem rowAt_disabled :
    (rowAt now db e t pre).enable = false ↔ t.enable = false ∧ FirstHolder db e pre := by
  rw [firstHolder_iff, rowAt]
  split
  case isTrue hall => exact (and_iff_left hall).symm
  case isFalse hall => exact iff_of_false (by exact Bool.false_ne_true.symm) fun h => hall h.2

theorem renewedEntries_expiry (hreset : 0 < t.reset) (hc : c ∈ renewedEntries now t cs) :
    c.expiryTime = renewedExpiry now t := by
  induction cs generalizing t with
  | nil => exact absurd hc not_mem_nil
  | cons c' cs ih =>
    rcases mem_cons.mp hc with rfl | hc
    · rfl
    · have hsame : renewedExpiry now (renewed now t) = renewedExpiry now t :=
        congrArg (·.expiryTime) (@renewed_twice now t hreset)
      exact (ih (t := renewed now t) hreset hc).trans hsame

theorem renewedEntries_enabled :
    (∀ c ∈ renewedEntries now t cs, c.enable = true) ↔
      ∀ c cs', cs = c :: cs' → (c.enable = true ∨ t.enable = false) ∧ ∀ c ∈ cs', c.enable = true := by
  induction cs generalizing t with
  | nil => exact iff_of_true (fun _ h => absurd h not_mem_nil) fun _ _ h => absurd h (cons_ne_nil _ _).symm
  | cons c cs ih =>
    have hrest : (∀ c ∈ renewedEntries now (renewed now t) cs, c.enable = true) ↔
        ∀ c ∈ cs, c.enable = true := by
      rw [ih]
      constructor
      · intro h c hc
        cases cs with
        | nil => exact absurd hc not_mem_nil
        | cons c' cs =>
          obtain ⟨hhead, htail⟩ := h c' cs rfl
          rcases mem_cons.mp hc with rfl | hc
          · exact hhead.resolve_right Bool.false_ne_true.symm
          · exact htail c hc
      · rintro h c' cs' rfl
        exact ⟨.inl (h c' mem_cons_self), fun c hc => h c (mem_cons_of_mem _ hc)⟩
    have hhead : (renewedEntry now t c).enable = true ↔ c.enable = true ∨ t.enable = false := by
      rw [renewedEntry]
      simp
    rw [renewedEntries, forall_mem_cons, hrest, hhead]
    constructor
    · rintro h c' cs' heq
      cases heq
      exact h
    · intro h
      exact h c cs rfl

theorem renewedEntries_head : (∃ c, (renewedEntries now t cs).head? = some c) ↔ cs ≠ [] := by
  cases cs with
  | nil => exact iff_of_false (fun ⟨_, h⟩ => nomatch h) fun h => h rfl
  | cons c cs => exact iff_of_true ⟨_, rfl⟩ (cons_ne_nil c cs)

theorem renewedEntries_email (hc : c ∈ renewedEntries now t cs) : ∃ c' ∈ cs, c'.email = c.email := by
  induction cs generalizing t with
  | nil => exact absurd hc not_mem_nil
  | cons c' cs ih =>
    rcases mem_cons.mp hc with rfl | hc
    · exact ⟨c', mem_cons_self, rfl⟩
    · obtain ⟨c'', hc'', hemail⟩ := ih hc
      exact ⟨c'', mem_cons_of_mem _ hc'', hemail⟩

end running

section selected

variable {now : Int} {s : Tables} {t t' : ClientTraffic} {i : Int} {rows : List ClientTraffic}

theorem find_row (hnodup : (rows.map (·.email)).Nodup) (ht : t ∈ rows) :
    rows.find? (·.email = t.email) = some t := by
  cases hfind : rows.find? (·.email = t.email) with
  | none => exact absurd (find?_eq_none.mp hfind t ht) (by simp)
  | some t' =>
    have hemail : t'.email = t.email := by simpa using find?_some hfind
    rw [inj_on_of_nodup_map hnodup (mem_of_find?_eq_some hfind) ht hemail]

theorem due_reset (hdue : due s.db now t) : 0 < t.reset ∧ 0 < t.expiryTime ∧ t.expiryTime ≤ now := by
  simp only [due, Bool.and_eq_true, decide_eq_true_eq] at hdue
  exact ⟨hdue.1.1.1, hdue.1.1.2, hdue.1.2⟩

theorem synced_inbounds (db : DB) (is : List Int) : (is.foldl syncOne db).inbounds = db.inbounds := by
  induction is generalizing db with
  | nil => rfl
  | cons i is ih =>
    refine (ih _).trans ?_
    rw [syncOne]
    cases hsync : syncInbound db i (db.settingsClients i) with
    | error err => rfl
    | ok db' => exact (syncInbound_ok hsync).1

theorem entries_of_inbounds {db db' : DB} (h : db'.inbounds = db.inbounds) (i : Int) (e : String) :
    db'.entries i e = db.entries i e := by
  rw [DB.entries, DB.entries, DB.settingsClients, DB.settingsClients, DB.clientsOf, DB.clientsOf, h]

structure Outcome (now : Int) (s : Tables) (t : ClientTraffic) : Prop where
  row : (autoRenewClients now s).db.traffics.find? (·.email = t.email) =
    some (rowAt now s.db t.email t (renewalInbounds s.db now))
  entries : ∀ pre i post, renewalInbounds s.db now = pre ++ i :: post →
    (autoRenewClients now s).db.entries i t.email =
      renewedEntries now (rowAt now s.db t.email t pre) (s.db.entries i t.email)
  added : ∀ i c, c.email = t.email → ((i, c) ∈ (autoRenewClients now s).clientsToAdd ↔
    ∃ pre post, renewalInbounds s.db now = pre ++ i :: post ∧ (rowAt now s.db t.email t pre).enable = false ∧
      (renewedEntries now (rowAt now s.db t.email t pre) (s.db.entries i t.email)).head? = some c)
  unique : ((autoRenewClients now s).db.traffics.map (·.email)).Nodup
  cleared : ∀ g ∈ (autoRenewClients now s).globals, g.email ≠ t.email

theorem found_nodup (db : DB) (ids : List Int) : (found db ids).Nodup :=
  db.inbounds.nodup.sublist (filter_sublist.map _)

theorem autoRenewed (hnodup : (s.db.traffics.map (·.email)).Nodup) (ht : t ∈ s.db.traffics)
    (hdue : due s.db now t) (hsaved : ¬refused s.db (renewalInbounds s.db now)) : Outcome now s t := by
  have hin : t ∈ dueRows s.db now := mem_filter.mpr ⟨ht, hdue⟩
  have hfind : (dueRows s.db now).find? (·.email = t.email) = some t :=
    find_row (hnodup.sublist (filter_sublist.map _)) hin
  have hswept : Swept now s.db t.email t (renewalInbounds s.db now)
      (renewAll now s.db (dueRows s.db now) (renewalInbounds s.db now)) :=
    renewAll_swept (found_nodup s.db _) (due_reset hdue).1 hfind
  have hsome : ¬(dueRows s.db now).isEmpty := by
    rw [List.isEmpty_iff]
    exact ne_nil_of_mem hin
  generalize hout : renewAll now s.db (dueRows s.db now) (renewalInbounds s.db now) = out at hswept
  have hemail : ∀ t',
      (if due s.db now t' then (out.2.1.find? (·.email = t'.email)).getD t' else t').email = t'.email := by
    intro t'
    split
    · cases hrow : out.2.1.find? (·.email = t'.email) with
      | none => rfl
      | some r =>
        have hfound : r.email = t'.email := by simpa using find?_some hrow
        exact hfound
    · rfl
  have hresult : autoRenewClients now s =
      { db := { (renewalInbounds s.db now).foldl syncOne out.1 with
          traffics := s.db.traffics.map fun t =>
            if due s.db now t then (out.2.1.find? (·.email = t.email)).getD t else t }
        globals := clearGlobalTraffic s.globals ((dueRows s.db now).map (·.email))
        clientsToAdd := out.2.2 } := by
    rw [autoRenewClients, if_neg hsome, if_neg hsaved, ← hout]
  have hentries : ∀ i, (autoRenewClients now s).db.entries i t.email = out.1.entries i t.email := by
    intro i
    rw [hresult]
    exact entries_of_inbounds (synced_inbounds out.1 _) i t.email
  refine ⟨?_, fun pre i post h => ?_, fun i c hc => ?_, ?_, ?_⟩
  · rw [hresult]
    dsimp only
    rw [find_map hemail, find_row hnodup ht, Option.map_some, if_pos hdue, hswept.row]
    rfl
  · rw [hentries, hswept.entries pre i post h]
  · rw [hresult]
    exact hswept.added i c hc
  · rw [hresult]
    have hemails : (fun t' : ClientTraffic => t'.email) ∘ (fun t' =>
        if due s.db now t' then (out.2.1.find? (·.email = t'.email)).getD t' else t') = (·.email) :=
      funext hemail
    rw [map_map, hemails]
    exact hnodup
  · intro g hg hown
    rw [hresult] at hg
    have hkept := (mem_filter.mp hg).2
    rw [hown] at hkept
    have hcontains : ((dueRows s.db now).map (·.email)).contains t.email = true :=
      contains_iff_mem.mpr (mem_map_of_mem hin)
    rw [hcontains] at hkept
    exact absurd hkept (by decide)

theorem attached_listed (ht : t ∈ s.db.traffics) (hdue : due s.db now t) (hi : i ∈ attached s.db t.email) :
    i ∈ renewalInbounds s.db now := by
  simp only [attached, renewalInbounds, found, linkedInbounds, mem_map, mem_filter,
    contains_iff_mem, mem_dedup, any_eq_true, Bool.and_eq_true] at hi ⊢
  obtain ⟨ib, ⟨hib, l, ⟨hl, r, hr, hid, hemail⟩, hlink⟩, rfl⟩ := hi
  have hdueRow : t ∈ dueRows s.db now := mem_filter.mpr ⟨ht, hdue⟩
  exact ⟨ib, ⟨hib, l, ⟨hl, r, hr, hid, t, hdueRow, (mem_singleton.mp hemail).symm⟩, hlink⟩, rfl⟩

theorem split_unique {is pre pre' post post' : List Int} (hnodup : is.Nodup) (h : is = pre ++ i :: post)
    (h' : is = pre' ++ i :: post') : pre' = pre ∧ post' = post := by
  subst h
  have hi := (nodup_middle.mp hnodup).notMem
  have hpre : i ∉ pre := fun hin => hi (mem_append_left _ hin)
  have hpost : i ∉ post := fun hin => hi (mem_append_right _ hin)
  obtain ⟨hpre', -, hpost'⟩ := (append_cons_inj_of_notMem hpre hpost).mp h'
  exact ⟨hpre'.symm, hpost'.symm⟩

theorem disableInvalidClients_spares {db : DB} {d : Consumption.TickDraws} {e : String}
    (hspared : ∀ t ∈ db.traffics, t.email = e → Consumption.depleted d t = false) :
    (Consumption.disableInvalidClients db d).traffics.find? (·.email = e) = db.traffics.find? (·.email = e) ∧
      ∀ i, (Consumption.disableInvalidClients db d).entries i e = db.entries i e := by
  have hemails : e ∉ ((db.traffics.filter (Consumption.depleted d)).map (·.email)).filter (· != "") := by
    intro hin
    obtain ⟨t, ht, hemail⟩ := mem_map.mp (mem_of_mem_filter hin)
    obtain ⟨ht, hdepleted⟩ := mem_filter.mp ht
    rw [hspared t ht hemail] at hdepleted
    exact Bool.false_ne_true hdepleted
  rw [Consumption.disableInvalidClients]
  generalize ((db.traffics.filter (Consumption.depleted d)).map (·.email)).filter (· != "") = emails at hemails ⊢
  constructor
  · dsimp only
    rw [find_map fun t => by split <;> rfl]
    cases hfind : db.traffics.find? (·.email = e) with
    | none => rfl
    | some t =>
      have hemail : t.email = e := by simpa using find?_some hfind
      rw [Option.map_some, if_neg]
      rw [hspared t (mem_of_find?_eq_some hfind) hemail]
      exact Bool.false_ne_true
  · intro i
    have hentry : ∀ j c, (Consumption.disableEntry db d emails j c).email = c.email := by
      intro j c
      rw [Consumption.disableEntry]
      split <;> rfl
    have hkept : ∀ j c, c.email = e → Consumption.disableEntry db d emails j c = c := by
      rintro j c rfl
      rw [Consumption.disableEntry, if_neg]
      intro hall
      simp only [Bool.and_eq_true, contains_iff_mem] at hall
      exact hemails hall.1.2
    have hmapped : ∀ j (cs : List Client),
        (cs.map (Consumption.disableEntry db d emails j)).filter (·.email == e) = cs.filter (·.email == e) := by
      intro j cs
      rw [filter_map]
      have hsame : ((fun c : Client => c.email == e) ∘ Consumption.disableEntry db d emails j) = (·.email == e) :=
        funext fun c => congrArg (· == e) (hentry j c)
      rw [hsame]
      refine (map_congr_left fun c hc => hkept j c ?_).trans (map_id _)
      simpa using (mem_filter.mp hc).2
    rw [DB.entries, DB.entries, DB.settingsClients, DB.settingsClients, DB.clientsOf, DB.clientsOf]
    simp only [Consumption.rewriteClients, Table.find_modify]
    cases db.inbounds.find i with
    | none => rfl
    | some ib =>
      simp only [Option.map_some, Option.bind_some]
      split
      · cases ib.clients with
        | none => rfl
        | some cs => exact hmapped ib.id cs
      · rfl

theorem rowAt_listed (hlisted : ∃ i ∈ renewalInbounds s.db now, s.db.entries i t.email ≠ []) :
    rowAt now s.db t.email t (renewalInbounds s.db now) = renewed now t := by
  rw [rowAt, if_neg]
  rw [← firstHolder_iff]
  obtain ⟨i, hi, hne⟩ := hlisted
  exact fun hfirst => hne (hfirst i hi)

theorem listed_of_later (hdue : due s.db now t)
    (hlater : now < (rowAt now s.db t.email t (renewalInbounds s.db now)).expiryTime) :
    ∃ i ∈ renewalInbounds s.db now, s.db.entries i t.email ≠ [] := by
  by_contra hnone
  have hfirst : FirstHolder s.db t.email (renewalInbounds s.db now) := by
    intro i hi
    by_contra hne
    exact hnone ⟨i, hi, hne⟩
  rw [rowAt, if_pos (firstHolder_iff.mp hfirst)] at hlater
  have := (due_reset hdue).2.2
  omega

theorem entries_enabled_iff (hout : Outcome now s t) {pre post : List Int}
    (hsplit : renewalInbounds s.db now = pre ++ i :: post) :
    (∀ c ∈ (autoRenewClients now s).db.entries i t.email, c.enable = true) ↔
      ∀ c cs, s.db.entries i t.email = c :: cs →
        (c.enable = true ∨ t.enable = false ∧ FirstHolder s.db t.email pre) ∧
          ∀ c ∈ cs, c.enable = true := by
  rw [hout.entries pre i post hsplit, renewedEntries_enabled, rowAt_disabled]

theorem entries_expiry (hdue : due s.db now t) (hout : Outcome now s t)
    (hi : i ∈ renewalInbounds s.db now) {c : Client} (hc : c ∈ (autoRenewClients now s).db.entries i t.email) :
    c.expiryTime = renewedExpiry now t := by
  have hreset := (due_reset hdue).1
  obtain ⟨pre, post, hsplit⟩ := append_of_mem hi
  rw [hout.entries pre i post hsplit] at hc
  have hrow : 0 < (rowAt now s.db t.email t pre).reset := by rwa [rowAt_reset]
  rw [renewedEntries_expiry hrow hc, rowAt_expiry hreset]

theorem readded_iff (hout : Outcome now s t) {pre post : List Int}
    (hsplit : renewalInbounds s.db now = pre ++ i :: post) (hdisabled : t.enable = false) :
    (∃ c, (i, c) ∈ (autoRenewClients now s).clientsToAdd ∧ c.email = t.email) ↔
      s.db.entries i t.email ≠ [] ∧ FirstHolder s.db t.email pre := by
  have hnodup : (renewalInbounds s.db now).Nodup := found_nodup s.db _
  constructor
  · rintro ⟨c, hc, hemail⟩
    obtain ⟨pre', post', hsplit', henable, hhead⟩ := (hout.added i c hemail).mp hc
    rw [(split_unique hnodup hsplit hsplit').1] at henable hhead
    exact ⟨renewedEntries_head.mp ⟨c, hhead⟩, (rowAt_disabled.mp henable).2⟩
  · rintro ⟨hne, hfirst⟩
    obtain ⟨c, hhead⟩ := (@renewedEntries_head now (rowAt now s.db t.email t pre) _).mpr hne
    obtain ⟨c', hc', hemail⟩ := renewedEntries_email (mem_of_mem_head? (Option.mem_def.mpr hhead))
    have hown : c.email = t.email := hemail.symm.trans (by simpa using (mem_filter.mp hc').2)
    exact ⟨c, (hout.added i c hown).mpr
      ⟨pre, post, hsplit, rowAt_disabled.mpr ⟨hdisabled, hfirst⟩, hhead⟩, hown⟩

theorem renewed_spared (hout : Outcome now s t)
    (hrow : rowAt now s.db t.email t (renewalInbounds s.db now) = renewed now t)
    (hlater : now < renewedExpiry now t) :
    (disableInvalidClients now (autoRenewClients now s).toTables).traffics.find? (·.email = t.email) =
        some (renewed now t) ∧
      ∀ i, (disableInvalidClients now (autoRenewClients now s).toTables).entries i t.email =
        (autoRenewClients now s).db.entries i t.email := by
  have hfind := hout.row
  rw [hrow] at hfind
  have hpushed : pushedOver (autoRenewClients now s).globals (renewed now t) = false := by
    rw [pushedOver, any_eq_false]
    intro g hg
    simp only [Bool.and_eq_true, beq_iff_eq]
    exact fun h => hout.cleared g hg h.1
  have hspared : ∀ t' ∈ (autoRenewClients now s).db.traffics, t'.email = t.email →
      Consumption.depleted ⟨now, now, pushedOver (autoRenewClients now s).globals⟩ t' = false := by
    intro t' ht' hemail
    have hsame : some t' = some (renewed now t) := by
      rw [← hfind, ← hemail]
      exact (find_row hout.unique ht').symm
    cases hsame
    rw [Consumption.depleted]
    dsimp only
    rw [hpushed]
    have hquota : (decide (0 < (renewed now t).total) &&
        decide ((renewed now t).total ≤ (renewed now t).up + (renewed now t).down)) = false := by
      rw [Bool.and_eq_false_iff, decide_eq_false_iff_not, decide_eq_false_iff_not]
      simp only [renewed]
      omega
    have hexpired : decide ((renewed now t).expiryTime ≤ now) = false := by
      rw [decide_eq_false_iff_not]
      simp only [renewed]
      omega
    rw [hquota, hexpired, Bool.and_false, Bool.and_false, Bool.or_false, Bool.or_false, Bool.and_false]
  obtain ⟨htraffic, hentries⟩ := disableInvalidClients_spares hspared
  exact ⟨htraffic.trans hfind, hentries⟩

theorem readable_not_refused {db : DB} {is : List Int} (hne : is ≠ [])
    (hreadable : ∀ i ∈ is, db.clientsOf i ≠ none) : ¬refused db is := by
  intro hrefused
  rcases (Bool.or_eq_true _ _).mp hrefused with hempty | hnone
  · exact hne (List.isEmpty_iff.mp hempty)
  · obtain ⟨j, hj, hnone⟩ := any_eq_true.mp hnone
    exact hreadable j hj (Option.isNone_iff_eq_none.mp hnone)

theorem readable_of_not_refused (h : ¬refused s.db (renewalInbounds s.db now)) :
    ∀ i ∈ renewalInbounds s.db now, s.db.clientsOf i ≠ none := by
  intro i hi hnone
  refine h ((Bool.or_eq_true _ _).mpr (.inr (any_eq_true.mpr ⟨i, hi, ?_⟩)))
  rw [hnone]
  rfl

theorem autoRenewClients_refused (h : refused s.db (renewalInbounds s.db now)) :
    autoRenewClients now s = ⟨s, []⟩ := by
  rw [autoRenewClients, if_pos h, ite_self]

end selected

section examples

def lapsing : Client := { freshClient "alice" 100 with id := "u", subID := "s", expiryTime := day, reset := 1 }

def lapsed : Tables where
  db :=
    { inbounds := Table.empty.insert (fun id => ⟨id, .vless, none, "", true, some [lapsing]⟩) fun _ => rfl
      records := Table.empty.insert (fun recordId => ⟨lapsing, recordId, 0, 0⟩) fun _ => rfl
      links := [⟨1, 1, ""⟩]
      traffics := [⟨1, "alice", 60, 40, 100, day, true, 1⟩] }
  globals := [⟨"master", "alice", 60, 40⟩]

def lapsedRow : ClientTraffic := ⟨1, "alice", 60, 40, 100, day, true, 1⟩

end examples

end AutoRenew

end QuiPanel
