import QuiPanel.Traffic
import QuiPanel.Library.Labelled

namespace QuiPanel

namespace Xray

open Labelled

structure Meter where
  counters : String → Nat
  statsLastValues : String → Option Int64
  polled : String → Bool
  total : String → Nat
  returned : String → Int

inductive Act
  | count (name : String) (bytes : Nat)
  | restart (cleared : Bool)
  | poll (names : List String)

def deltaOf (p : Poll) (name : String) : Option Int64 :=
  match slot name with
  | some (.traffic inbound tag isDown) =>
      ((p.tags.find? (·.tag = tag)).filter (·.isInbound = inbound)).map (·.field isDown)
  | some (.client email isDown) => (p.emails.find? (·.email = email)).map (·.field isDown)
  | none => none

def Meter.stat (m : Meter) (name : String) : Stat := ⟨name, Int64.ofNat (m.counters name)⟩

def Meter.poll (m : Meter) (names : List String) : Poll :=
  getTraffic m.statsLastValues (names.map m.stat)

def Meter.start (counters : String → Nat) : Meter :=
  ⟨counters, fun _ => none, fun _ => false, fun _ => 0, fun _ => 0⟩

def Meter.count (m : Meter) (name : String) (bytes : Nat) : Meter :=
  { m with
    counters := Function.update m.counters name (m.counters name + bytes)
    total := Function.update m.total name (m.total name + if m.polled name then bytes else 0) }

def Meter.restart (m : Meter) (cleared : Bool) : Meter :=
  { m with
    counters := fun _ => 0
    statsLastValues := if cleared then fun _ => none else m.statsLastValues }

def Meter.polling (m : Meter) (names : List String) : Meter :=
  { m with
    statsLastValues := (m.poll names).statsLastValues
    polled := fun name => m.polled name || names.contains name
    returned := fun name => m.returned name + ((deltaOf (m.poll names) name).getD 0).toInt }

inductive Step (names : Set String) : Meter → Act → Meter → Prop
  | count {m : Meter} {name : String} {bytes : Nat} (hname : name ∈ names)
      (hint : m.counters name + bytes < 2 ^ 63) : Step names m (.count name bytes) (m.count name bytes)
  | restart {m : Meter} {cleared : Bool} : Step names m (.restart cleared) (m.restart cleared)
  | poll {m : Meter} {listed : List String} (hnodup : listed.Nodup) (hnames : ∀ n ∈ listed, n ∈ names) :
      Step names m (.poll listed) (m.polling listed)

def Undisturbed (name : String) : Act → Prop
  | .count _ _ => True
  | .restart _ => False
  | .poll listed => name ∉ listed

def Reported (name : String) : Prop :=
  ∃ sl, slot name = some sl ∧ ∀ inbound isDown, sl ≠ .traffic inbound "api" isDown

structure Metered (names : Set String) : Prop where
  bounded : ∀ counters acts m, (∀ n, counters n < 2 ^ 63) → Run (Step names) (.start counters) acts m →
    ∀ n ∈ names, m.returned n ≤ m.total n
  nonneg : ∀ counters acts m listed m', (∀ n, counters n < 2 ^ 63) →
    Run (Step names) (.start counters) acts m → Step names m (.poll listed) m' →
      (∀ r ∈ (m.poll listed).tags, 0 ≤ r.up ∧ 0 ≤ r.down) ∧
        ∀ r ∈ (m.poll listed).emails, 0 ≤ r.up ∧ 0 ≤ r.down
  exact : ∀ counters acts m before m₁ calm m₂ after m₃ name, (∀ n, counters n < 2 ^ 63) →
    Run (Step names) (.start counters) acts m → Step names m (.poll before) m₁ → name ∈ before →
    Run (Step names) m₁ calm m₂ → (∀ a ∈ calm, Undisturbed name a) →
    Step names m₂ (.poll after) m₃ → name ∈ after → Reported name →
      ∃ v, deltaOf (m₂.poll after) name = some v ∧ v.toInt + m.counters name = m₂.counters name

def Clash : Slot → Slot → Prop
  | .traffic inbound tag isDown, .traffic inbound' tag' isDown' =>
      tag = tag' ∧ tag ≠ "api" ∧ (inbound = inbound' → isDown = isDown')
  | .client email isDown, .client email' isDown' => email = email' ∧ isDown = isDown'
  | _, _ => False

def Apart (names : Set String) : Prop :=
  ∀ n ∈ names, ∀ n' ∈ names, ∀ sl sl', slot n = some sl → slot n' = some sl' → Clash sl sl' → n = n'

section readings

variable {names : Set String} {listed : List String} {m : Meter} {name : String}

theorem nodup_stats (h : listed.Nodup) : ((listed.map m.stat).map (·.name)).Nodup := by
  rw [List.map_map]
  exact (List.map_id listed).symm ▸ h

theorem find_stat : (listed.map m.stat).find? (·.name = name) =
    if name ∈ listed then some (m.stat name) else none := by
  induction listed with
  | nil => rfl
  | cons n listed ih =>
    rcases eq_or_ne n name with rfl | hne
    · simp [Meter.stat]
    · rw [List.map_cons, List.find?_cons, ih]
      simp [Meter.stat, hne, hne.symm]

def Meter.pieces (m : Meter) (listed : List String) : List (Slot × Int64) :=
  (listed.map m.stat).filterMap (piece m.statsLastValues)

def Meter.growth (m : Meter) (listed : List String) (name : String) : Option Int64 :=
  if name ∈ listed then delta m.statsLastValues (m.stat name) else none

theorem poll_eq (hnodup : listed.Nodup) : m.poll listed =
    ⟨remember m.statsLastValues (listed.map m.stat), tagsOf (m.pieces listed),
      emailsOf (m.pieces listed)⟩ :=
  getTraffic_eq (nodup_stats hnodup)

theorem mem_listed {p : Slot × Int64} (h : p ∈ m.pieces listed) :
    ∃ n ∈ listed, slot n = some p.1 ∧ delta m.statsLastValues (m.stat n) = some p.2 := by
  obtain ⟨stat, hstat, hsl, hv⟩ := mem_pieces.mp h
  obtain ⟨n, hn, rfl⟩ := List.mem_map.mp hstat
  exact ⟨n, hn, hsl, hv⟩

theorem latest_own (hapart : Apart names) (hnodup : listed.Nodup) (hsub : ∀ n ∈ listed, n ∈ names)
    (hname : name ∈ names) {sl : Slot} (hsl : slot name = some sl) {q : Slot → Bool}
    (hq : ∀ n ∈ listed, ∀ sl', slot n = some sl' → q sl' = true → Clash sl' sl) (hself : q sl = true) :
    latest q (m.pieces listed) = m.growth listed name := by
  have hown : ∀ stat ∈ listed.map m.stat, ∀ sl', slot stat.name = some sl' → q sl' = true →
      stat.name = name := by
    intro stat hstat sl' hsl' hqsl
    obtain ⟨n, hn, rfl⟩ := List.mem_map.mp hstat
    exact hapart n (hsub n hn) name hname sl' sl hsl' hsl (hq n hn sl' hsl' hqsl)
  rw [Meter.pieces, latest_pieces (nodup_stats hnodup) hown ⟨sl, hsl, hself⟩, find_stat, Meter.growth]
  split <;> rfl

theorem deltaOf_client (hapart : Apart names) (hnodup : listed.Nodup)
    (hsub : ∀ n ∈ listed, n ∈ names) (hname : name ∈ names) {email : String} {isDown : Bool}
    (hsl : slot name = some (.client email isDown)) :
    deltaOf (m.poll listed) name = some ((m.growth listed name).getD 0) ∨
      deltaOf (m.poll listed) name = none ∧ m.growth listed name = none := by
  have hown : latest (forClient email isDown) (m.pieces listed) = m.growth listed name := by
    apply latest_own hapart hnodup hsub hname hsl
    · intro n _ sl' _ hq
      cases sl' with
      | traffic => simp [forClient] at hq
      | client e d => simpa [forClient, Clash] using hq
    · simp [forClient]
  simp only [deltaOf, hsl, poll_eq hnodup, find_email, ← hown]
  cases hseen : hasEmail (m.pieces listed) email with
  | true =>
    left
    cases isDown <;> rfl
  | false =>
    right
    refine ⟨rfl, ?_⟩
    apply latest_none
    intro p hp
    have hp := List.any_eq_false.mp hseen p hp
    cases isDown <;> simp_all

theorem kind_own (hapart : Apart names) (hsub : ∀ n ∈ listed, n ∈ names) (hname : name ∈ names)
    {tag : String} {inbound isDown : Bool} (hsl : slot name = some (.traffic inbound tag isDown))
    (htag : tag ≠ "api") {n : String} (hn : n ∈ listed) {k d : Bool}
    (hslot : slot n = some (.traffic k tag d)) : k = inbound := by
  by_contra hne
  have hclash : Clash (.traffic k tag d) (.traffic inbound tag isDown) :=
    ⟨rfl, htag, fun he => absurd he hne⟩
  obtain rfl := hapart n (hsub n hn) name hname _ _ hslot hsl hclash
  rw [hsl] at hslot
  cases hslot
  exact hne rfl

theorem deltaOf_traffic (hapart : Apart names) (hnodup : listed.Nodup)
    (hsub : ∀ n ∈ listed, n ∈ names) (hname : name ∈ names) {tag : String} {inbound isDown : Bool}
    (hsl : slot name = some (.traffic inbound tag isDown)) (htag : tag ≠ "api") :
    deltaOf (m.poll listed) name = some ((m.growth listed name).getD 0) ∨
      deltaOf (m.poll listed) name = none ∧ m.growth listed name = none := by
  have hown : latest (forTag tag isDown) (m.pieces listed) = m.growth listed name := by
    apply latest_own hapart hnodup hsub hname hsl
    · intro n hn sl' hsl' hq
      cases sl' with
      | client => simp [forTag] at hq
      | traffic k t d =>
        simp only [forTag, Bool.and_eq_true, decide_eq_true_eq] at hq
        obtain ⟨rfl, rfl⟩ := hq
        exact ⟨rfl, htag, fun _ => rfl⟩
    · simp [forTag]
  simp only [deltaOf, hsl, poll_eq hnodup, find_tag htag, ← hown, tagRow]
  cases hkind : (m.pieces listed).findSome? (kindOf tag) with
  | some k =>
    left
    obtain ⟨⟨sl', v⟩, hp, hk⟩ := List.exists_of_findSome?_eq_some hkind
    obtain ⟨n, hn, hslot, -⟩ := mem_listed hp
    cases sl' with
    | client => cases hk
    | traffic k' t d =>
      simp only [kindOf, Option.ite_none_right_eq_some, Option.some.injEq] at hk
      obtain ⟨rfl, rfl⟩ := hk
      obtain rfl := kind_own hapart hsub hname hsl htag hn hslot
      cases isDown <;> simp [Traffic.field, tagField]
  | none =>
    right
    refine ⟨rfl, ?_⟩
    apply latest_none
    intro p hp
    have hp := List.findSome?_eq_none_iff.mp hkind p hp
    obtain ⟨sl', v⟩ := p
    cases sl' with
    | client => rfl
    | traffic k t d => simpa [forTag] using fun ht : t = tag => absurd hp (by simp [kindOf, ht])

theorem deltaOf_eq (hapart : Apart names) (hnodup : listed.Nodup) (hsub : ∀ n ∈ listed, n ∈ names)
    (hname : name ∈ names) (hrep : Reported name) :
    deltaOf (m.poll listed) name = some ((m.growth listed name).getD 0) ∨
      deltaOf (m.poll listed) name = none ∧ m.growth listed name = none := by
  obtain ⟨sl, hsl, hrep⟩ := hrep
  cases sl with
  | client => exact deltaOf_client hapart hnodup hsub hname hsl
  | traffic inbound tag isDown =>
    exact deltaOf_traffic hapart hnodup hsub hname hsl fun h => hrep inbound isDown (by rw [h])

theorem deltaOf_unreported (hnodup : listed.Nodup) (h : ¬ Reported name) :
    deltaOf (m.poll listed) name = none := by
  cases hsl : slot name with
  | none => simp only [deltaOf, hsl]
  | some sl =>
    cases sl with
    | client => exact absurd ⟨_, hsl, by simp⟩ h
    | traffic inbound tag isDown =>
      rcases eq_or_ne tag "api" with rfl | hne
      · simp only [deltaOf, hsl, poll_eq hnodup, find_api]
        rfl
      · exact absurd ⟨_, hsl, by simp [hne]⟩ h

end readings

structure Sound (m : Meter) (name : String) : Prop where
  small : m.counters name < 2 ^ 63
  known : ∀ l, m.statsLastValues name = some l → 0 ≤ l ∧ m.polled name = true
  bounded : m.returned name ≤ m.total name
  slack : ∀ l, m.statsLastValues name = some l → l.toInt ≤ m.counters name →
    m.returned name + (m.counters name - l.toInt) ≤ m.total name

section soundness

variable {names : Set String} {listed : List String} {m m' : Meter} {name : String}

theorem stat_toInt (h : m.counters name < 2 ^ 63) : (m.stat name).value.toInt = m.counters name :=
  Int64.toInt_ofNat_of_lt h

theorem growth_some {l : Int64} (hm : Sound m name) (hin : name ∈ listed)
    (hl : m.statsLastValues name = some l) (hle : l.toInt ≤ m.counters name) :
    ∃ v, m.growth listed name = some v ∧ v.toInt = m.counters name - l.toInt := by
  have hvalue := stat_toInt hm.small
  have hge : l ≤ (m.stat name).value := by
    rw [Int64.le_iff_toInt_le, hvalue]
    exact hle
  refine ⟨(m.stat name).value - l, ?_, ?_⟩
  · have hlast : m.statsLastValues (m.stat name).name = some l := hl
    have hnot : ¬ (m.stat name).value < l := Int64.not_lt.mpr hge
    simp only [Meter.growth, hin, if_true, delta, hlast, Option.bind_some, hnot, if_false]
  · rw [Int64.toInt_sub_of_le _ _ (hm.known l hl).1 hge, hvalue]

theorem growth_zero {v : Int64} (hm : Sound m name) (h : m.growth listed name = some v) :
    ∃ l, m.statsLastValues name = some l ∧ l.toInt ≤ m.counters name ∧ name ∈ listed ∧
      v.toInt = m.counters name - l.toInt := by
  have hg := h
  simp only [Meter.growth, delta, Option.ite_none_right_eq_some, Option.bind_eq_some_iff,
    Option.ite_none_left_eq_some] at hg
  obtain ⟨hin, l, hl, hnot, -⟩ := hg
  have hle : l.toInt ≤ m.counters name := by
    rw [← stat_toInt hm.small, ← Int64.le_iff_toInt_le]
    exact Int64.not_lt.mp hnot
  obtain ⟨v', hv', hint⟩ := growth_some hm hin hl hle
  rw [h] at hv'
  cases hv'
  exact ⟨l, hl, hle, hin, hint⟩

theorem returned_poll (hapart : Apart names) (hnodup : listed.Nodup)
    (hsub : ∀ n ∈ listed, n ∈ names) (hname : name ∈ names) :
    (deltaOf (m.poll listed) name).getD 0 = 0 ∨
      ∃ v, m.growth listed name = some v ∧ (deltaOf (m.poll listed) name).getD 0 = v := by
  by_cases hrep : Reported name
  · rcases deltaOf_eq (m := m) hapart hnodup hsub hname hrep with h | ⟨h, -⟩
    · cases hg : m.growth listed name with
      | none => exact .inl (by rw [h, hg]; rfl)
      | some v => exact .inr ⟨v, rfl, by rw [h, hg]; rfl⟩
    · exact .inl (by rw [h]; rfl)
  · exact .inl (by rw [deltaOf_unreported hnodup hrep]; rfl)

theorem last_listed (hnodup : listed.Nodup) (h : name ∈ listed) :
    (m.polling listed).statsLastValues name = some (m.stat name).value := by
  have hmem : m.stat name ∈ listed.map m.stat := List.mem_map_of_mem h
  simp only [Meter.polling, poll_eq hnodup]
  exact remember_of_mem (nodup_stats hnodup) hmem

theorem last_unlisted (hnodup : listed.Nodup) (h : name ∉ listed) :
    (m.polling listed).statsLastValues name = m.statsLastValues name := by
  simp only [Meter.polling, poll_eq hnodup]
  apply remember_of_not_mem
  intro hmem
  obtain ⟨_, hstat, rfl⟩ := List.mem_map.mp hmem
  obtain ⟨n, hn, rfl⟩ := List.mem_map.mp hstat
  exact h hn

theorem Sound.count (hm : Sound m name) {n : String} {bytes : Nat}
    (hint : m.counters n + bytes < 2 ^ 63) : Sound (m.count n bytes) name := by
  rcases eq_or_ne name n with rfl | hne
  · constructor
    case small => simpa [Meter.count] using hint
    case known => exact hm.known
    case bounded =>
      have hb := hm.bounded
      simp only [Meter.count, Function.update_self]
      split <;> omega
    case slack =>
      intro l hl hle
      have hpolled := (hm.known l hl).2
      have hb := hm.bounded
      have hslack := hm.slack l hl
      simp only [Meter.count, Function.update_self, hpolled, if_true] at hle ⊢
      by_cases hc : l.toInt ≤ m.counters name
      · have := hslack hc
        omega
      · omega
  · constructor
    case small => simpa [Meter.count, hne] using hm.small
    case known => exact hm.known
    case bounded => simpa [Meter.count, hne] using hm.bounded
    case slack => simpa [Meter.count, hne] using hm.slack

theorem Sound.restart (hm : Sound m name) (cleared : Bool) : Sound (m.restart cleared) name := by
  constructor
  case small => exact Nat.two_pow_pos 63
  case known =>
    cases cleared with
    | true => intro l hl; cases hl
    | false => exact hm.known
  case bounded => exact hm.bounded
  case slack =>
    cases cleared with
    | true => intro l hl; cases hl
    | false =>
      intro l hl hle
      have hpos := Int64.le_iff_toInt_le.mp (hm.known l hl).1
      have hb := hm.bounded
      have hzero : (0 : Int64).toInt = 0 := rfl
      simp only [Meter.restart] at hle ⊢
      omega

theorem Sound.poll (hm : Sound m name) (hapart : Apart names) (hnodup : listed.Nodup)
    (hsub : ∀ n ∈ listed, n ∈ names) (hname : name ∈ names) : Sound (m.polling listed) name := by
  have hreturned : m.returned name + ((deltaOf (m.poll listed) name).getD 0).toInt ≤ m.total name := by
    have hb := hm.bounded
    rcases returned_poll (m := m) hapart hnodup hsub hname with h | ⟨v, hv, h⟩
    · rw [h]
      simpa using hb
    · obtain ⟨l, hl, hle, -, hint⟩ := growth_zero hm hv
      rw [h, hint]
      exact hm.slack l hl hle
  by_cases hin : name ∈ listed
  · constructor
    case small => exact hm.small
    case known =>
      intro l hl
      rw [last_listed hnodup hin] at hl
      obtain rfl := Option.some.inj hl
      constructor
      · rw [Int64.le_iff_toInt_le, stat_toInt hm.small]
        exact Int.natCast_nonneg _
      · simp [Meter.polling, hin]
    case bounded => exact hreturned
    case slack =>
      intro l hl _
      rw [last_listed hnodup hin] at hl
      obtain rfl := Option.some.inj hl
      rw [stat_toInt hm.small]
      simp only [Meter.polling]
      omega
  · have hzero : (deltaOf (m.poll listed) name).getD 0 = 0 := by
      rcases returned_poll (m := m) hapart hnodup hsub hname with h | ⟨v, hv, -⟩
      · exact h
      · obtain ⟨_, _, _, hlisted, _⟩ := growth_zero hm hv
        exact absurd hlisted hin
    constructor
    case small => exact hm.small
    case known =>
      intro l hl
      rw [last_unlisted hnodup hin] at hl
      obtain ⟨hpos, hpolled⟩ := hm.known l hl
      exact ⟨hpos, by simp [Meter.polling, hpolled]⟩
    case bounded => exact hreturned
    case slack =>
      intro l hl hle
      rw [last_unlisted hnodup hin] at hl
      have hslack := hm.slack l hl hle
      simpa [Meter.polling, hzero] using hslack

theorem Sound.step {a : Act} (hapart : Apart names) (hname : name ∈ names) (hm : Sound m name)
    (h : Step names m a m') : Sound m' name := by
  cases h with
  | count _ hint => exact hm.count hint
  | restart => exact hm.restart _
  | poll hnodup hsub => exact hm.poll hapart hnodup hsub hname

theorem sound_start {counters : String → Nat} (h : counters name < 2 ^ 63) :
    Sound (.start counters) name := by
  constructor
  case small => exact h
  case known => intro l hl; cases hl
  case bounded => exact Int.le_refl 0
  case slack => intro l hl; cases hl

variable {acts : List Act}

theorem sound_run (hapart : Apart names) (hname : name ∈ names) (hm : Sound m name)
    (h : Run (Step names) m acts m') : Sound m' name :=
  h.invariant (I := fun m => Sound m name) (fun _ _ _ hm hstep => hm.step hapart hname hstep) hm

theorem pieces_nonneg (hsound : ∀ n ∈ listed, Sound m n) : ∀ p ∈ m.pieces listed, 0 ≤ p.2 := by
  intro p hp
  obtain ⟨n, hn, -, hv⟩ := mem_listed hp
  have hgrowth : m.growth listed n = some p.2 := by
    rw [Meter.growth, if_pos hn, hv]
  obtain ⟨l, -, hle, -, hint⟩ := growth_zero (hsound n hn) hgrowth
  rw [Int64.le_iff_toInt_le, hint]
  have hzero : (0 : Int64).toInt = 0 := rfl
  omega

structure Since (name : String) (l : Int64) (seen : Nat) (m : Meter) : Prop where
  last : m.statsLastValues name = some l
  grown : seen ≤ m.counters name

theorem Since.step {l : Int64} {seen : Nat} {a : Act} (hm : Since name l seen m)
    (hcalm : Undisturbed name a) (h : Step names m a m') : Since name l seen m' := by
  cases h with
  | @count n bytes _ _ =>
    constructor
    · exact hm.last
    · have hgrown := hm.grown
      rcases eq_or_ne name n with rfl | hne
      · simp only [Meter.count, Function.update_self]
        omega
      · simpa [Meter.count, hne] using hgrown
  | restart => exact absurd hcalm id
  | poll hnodup _ =>
    constructor
    · rw [last_unlisted hnodup hcalm]
      exact hm.last
    · exact hm.grown

theorem Since.run {l : Int64} {seen : Nat} (hm : Since name l seen m)
    (hcalm : ∀ a ∈ acts, Undisturbed name a) (h : Run (Step names) m acts m') :
    Since name l seen m' := by
  induction h with
  | nil => exact hm
  | cons hstep _ ih =>
    have hhead := hcalm _ (List.mem_cons_self ..)
    have htail := fun a ha => hcalm a (List.mem_cons_of_mem _ ha)
    exact ih (hm.step hhead hstep) htail

theorem exact_increase {m₀ : Meter} {before : List String} (hapart : Apart names)
    (h₀ : Sound m₀ name) (hbefore : Step names m₀ (.poll before) m) (hseen : name ∈ before)
    (hrun : Run (Step names) m acts m') (hcalm : ∀ a ∈ acts, Undisturbed name a)
    (hnodup : listed.Nodup) (hsub : ∀ n ∈ listed, n ∈ names) (hin : name ∈ listed)
    (hrep : Reported name) :
    ∃ v, deltaOf (m'.poll listed) name = some v ∧ v.toInt + m₀.counters name = m'.counters name := by
  cases hbefore with
  | poll hnodup₀ hsub₀ =>
    have hname := hsub₀ name hseen
    have hm := sound_run hapart hname (h₀.poll hapart hnodup₀ hsub₀ hname) hrun
    have hstart : Since name (m₀.stat name).value (m₀.counters name) (m₀.polling before) :=
      ⟨last_listed hnodup₀ hseen, Nat.le_refl _⟩
    obtain ⟨hlast, hgrown⟩ := hstart.run hcalm hrun
    have hvalue := stat_toInt h₀.small
    have hle : (m₀.stat name).value.toInt ≤ m'.counters name := by
      rw [hvalue]
      exact Int.ofNat_le.mpr hgrown
    obtain ⟨v, hv, hint⟩ := growth_some hm hin hlast hle
    rcases deltaOf_eq (m := m') hapart hnodup hsub hname hrep with h | ⟨-, h⟩
    · refine ⟨v, by rw [h, hv]; rfl, ?_⟩
      rw [hint, hvalue]
      omega
    · rw [hv] at h
      cases h

theorem metered_of_apart (hapart : Apart names) : Metered names := by
  have hsound : ∀ counters acts m, (∀ n, counters n < 2 ^ 63) →
      Run (Step names) (.start counters) acts m → ∀ n ∈ names, Sound m n := by
    intro counters acts m hsmall hrun n hn
    exact sound_run hapart hn (sound_start (hsmall n)) hrun
  constructor
  case bounded =>
    intro counters acts m hsmall hrun n hn
    exact (hsound counters acts m hsmall hrun n hn).bounded
  case nonneg =>
    intro counters acts m listed m' hsmall hrun hpoll
    cases hpoll with
    | poll hnodup hsub =>
      have hpos := pieces_nonneg fun n hn => hsound counters acts m hsmall hrun n (hsub n hn)
      rw [poll_eq hnodup]
      exact ⟨tagsOf_nonneg hpos, emailsOf_nonneg hpos⟩
  case exact =>
    intro counters acts m before m₁ calm m₂ after m₃ name hsmall hrun hpoll hin hrun' hcalm hpoll'
      hin' hrep
    have hname : name ∈ names := by
      cases hpoll with
      | poll _ hsub => exact hsub name hin
    have hm := hsound counters acts m hsmall hrun name hname
    cases hpoll' with
    | poll hnodup hsub => exact exact_increase hapart hm hpoll hin hrun' hcalm hnodup hsub hin' hrep

theorem clash_reported {sl sl' : Slot} (h : Clash sl sl') :
    (∀ inbound isDown, sl ≠ .traffic inbound "api" isDown) ∧
      ∀ inbound isDown, sl' ≠ .traffic inbound "api" isDown := by
  cases sl with
  | client => cases sl' with
    | client => simp
    | traffic => exact absurd h id
  | traffic inbound tag isDown => cases sl' with
    | client => exact absurd h id
    | traffic inbound' tag' isDown' =>
      obtain ⟨rfl, hne, -⟩ := h
      simp [hne]

end soundness

section clashing

variable {n n' : String} {sl sl' : Slot}

def grownBy (n n' : String) : Meter :=
  ((Meter.start fun _ => 0).polling [n, n']).count n' 1

theorem grown_pieces (hne : n ≠ n') (hsl : slot n = some sl) (hsl' : slot n' = some sl') :
    (grownBy n n').pieces [n, n'] = [(sl, 0), (sl', 1)] := by
  have hnodup : [n, n'].Nodup := by simpa using hne
  have hlast : (grownBy n n').statsLastValues n = some 0 := last_listed hnodup (by simp)
  have hlast' : (grownBy n n').statsLastValues n' = some 0 := last_listed hnodup (by simp)
  have hcount : (grownBy n n').counters n = 0 := by
    simp [grownBy, Meter.count, Meter.polling, Meter.start, hne]
  have hcount' : (grownBy n n').counters n' = 1 := by
    simp [grownBy, Meter.count, Meter.polling, Meter.start]
  simp [Meter.pieces, Meter.stat, piece, delta, hlast, hlast', hcount, hcount', hsl, hsl']

theorem clash_misreported (hne : n ≠ n') (hsl : slot n = some sl) (hsl' : slot n' = some sl')
    (h : Clash sl sl') : deltaOf ((grownBy n n').poll [n, n']) n = some 1 ∨
      deltaOf ((grownBy n n').poll [n, n']) n' = none := by
  have hnodup : [n, n'].Nodup := by simpa using hne
  rw [poll_eq hnodup, grown_pieces hne hsl hsl']
  cases sl with
  | client email isDown => cases sl' with
    | traffic => exact absurd h id
    | client email' isDown' =>
      obtain ⟨rfl, rfl⟩ := h
      left
      cases isDown <;>
        simp [deltaOf, hsl, emailsOf, recordEmail, upsert, ClientTraffic.set, ClientTraffic.field]
  | traffic inbound tag isDown => cases sl' with
    | client => exact absurd h id
    | traffic inbound' tag' isDown' =>
      obtain ⟨rfl, htag, hdir⟩ := h
      rcases eq_or_ne inbound inbound' with rfl | hkind
      · obtain rfl := hdir rfl
        left
        cases isDown <;>
          simp [deltaOf, hsl, tagsOf, recordTag, htag, upsert, Traffic.set, Traffic.field]
      · right
        cases isDown <;> cases isDown' <;>
          simp [deltaOf, hsl', tagsOf, recordTag, htag, upsert, Traffic.set, hkind]

end clashing

theorem metered_iff (names : Set String) : Metered names ↔ Apart names := by
  constructor
  · intro h n hn n' hn' sl sl' hsl hsl' hclash
    by_contra hne
    have hnodup : [n, n'].Nodup := by simpa using hne
    have hsub : ∀ k ∈ [n, n'], k ∈ names := by simpa using ⟨hn, hn'⟩
    have hzero : ∀ k : String, (fun _ : String => (0 : Nat)) k < 2 ^ 63 := fun _ => Nat.two_pow_pos 63
    have hcount : Step names ((Meter.start fun _ => 0).polling [n, n']) (.count n' 1) (grownBy n n') :=
      .count hn' (by simp [Meter.polling, Meter.start])
    have hexact : ∀ k ∈ [n, n'], Reported k → ∃ v, deltaOf ((grownBy n n').poll [n, n']) k = some v ∧
        v.toInt + 0 = (grownBy n n').counters k := fun k hk hrep =>
      h.exact (fun _ => 0) [] _ _ _ _ _ _ _ k hzero (.nil _) (.poll hnodup hsub) hk (.single hcount)
        (by simp [Undisturbed]) (.poll hnodup hsub) hk hrep
    rcases clash_misreported hne hsl hsl' hclash with hone | hnone
    · obtain ⟨v, hv, hint⟩ := hexact n (by simp) ⟨sl, hsl, (clash_reported hclash).1⟩
      rw [hone] at hv
      obtain rfl := Option.some.inj hv
      simp [grownBy, Meter.count, Meter.polling, Meter.start, hne] at hint
    · obtain ⟨v, hv, -⟩ := hexact n' (by simp) ⟨sl', hsl', (clash_reported hclash).2⟩
      rw [hnone] at hv
      cases hv
  · exact metered_of_apart

theorem shared_tag_overcounted :
    let n := "inbound>>>x>>>traffic>>>uplink"
    let n' := "outbound>>>x>>>traffic>>>uplink"
    Run (Step {n, n'}) (.start fun _ => 0) [.poll [n, n'], .count n' 100, .poll [n, n']]
        (((Meter.start fun _ => 0).polling [n, n']).count n' 100 |>.polling [n, n']) ∧
      ((((Meter.start fun _ => 0).polling [n, n']).count n' 100).polling [n, n']).total n = 0 ∧
      ((((Meter.start fun _ => 0).polling [n, n']).count n' 100).polling [n, n']).returned n = 100 := by
  refine ⟨?_, by decide, by decide⟩
  have hsub : ∀ k ∈ ["inbound>>>x>>>traffic>>>uplink", "outbound>>>x>>>traffic>>>uplink"],
      k ∈ ({"inbound>>>x>>>traffic>>>uplink", "outbound>>>x>>>traffic>>>uplink"} : Set String) := by simp
  exact .cons (.poll (by decide) hsub)
    (.cons (.count (.inr rfl) (by decide)) (.single (.poll (by decide) hsub)))

end Xray

end QuiPanel
