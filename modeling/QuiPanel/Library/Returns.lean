import QuiPanel.Library.Outcome
import Mathlib.Data.List.Basic

namespace Outcome

variable {ε α β : Type}

def Returns (x : Except ε α) : Prop := ∃ a, x = .ok a

variable {x : Except ε α} {f : α → Except ε β} {e : ε} {P : Prop}

@[simp] theorem returns_ok {a : α} : Returns (.ok a : Except ε α) := ⟨a, rfl⟩

@[simp] theorem returns_pure {a : α} : Returns (pure a : Except ε α) := ⟨a, rfl⟩

@[simp] theorem not_returns_error : ¬ Returns (.error e : Except ε α) := nofun

@[simp] theorem returns_orErr {o : Option α} : Returns (orErr o e) ↔ o.isSome := by
  cases o with
  | none => simp [orErr]
  | some a => simp [orErr]

@[simp] theorem returns_map {g : α → β} : Returns (g <$> x) ↔ Returns x := by
  cases x with
  | error e => exact ⟨nofun, nofun⟩
  | ok a => exact ⟨fun _ => ⟨a, rfl⟩, fun _ => ⟨g a, rfl⟩⟩

theorem returns_bind : Returns (x >>= f) ↔ ∃ a, x = .ok a ∧ Returns (f a) := by
  cases x with
  | error e => exact ⟨nofun, nofun⟩
  | ok a =>
    constructor
    · exact fun h => ⟨a, rfl, h⟩
    · rintro ⟨b, hb, h⟩
      obtain rfl := Except.ok.inj hb
      exact h

theorem Returns.bind (hx : Returns x) (hf : ∀ a, x = .ok a → Returns (f a)) : Returns (x >>= f) := by
  obtain ⟨a, ha⟩ := hx
  exact returns_bind.mpr ⟨a, ha, hf a ha⟩

theorem returns_bind_iff (h : ∀ a, x = .ok a → (Returns (f a) ↔ P)) :
    Returns (x >>= f) ↔ Returns x ∧ P := by
  rw [returns_bind]
  constructor
  · rintro ⟨a, hx, hf⟩
    exact ⟨⟨a, hx⟩, (h a hx).mp hf⟩
  · rintro ⟨⟨a, hx⟩, hP⟩
    exact ⟨a, hx, (h a hx).mpr hP⟩

@[simp] theorem returns_bind_pure {g : α → β} : Returns (x >>= fun a => pure (g a)) ↔ Returns x := by
  rw [returns_bind_iff (P := True) fun _ _ => by simp, and_true]

theorem returns_bind_left (h : ∀ a, x = .ok a → Returns (f a)) : Returns (x >>= f) ↔ Returns x := by
  rw [returns_bind_iff fun a ha => iff_true_intro (h a ha), and_true]

theorem returns_bind_ok {a : α} (h : x = .ok a) : Returns (x >>= f) ↔ Returns (f a) := by
  subst h
  rfl

theorem returns_bind_forall {δ : Type} {x : δ → Except ε α} {f : δ → α → Except ε β} {Q : δ → Prop}
    (h : ∀ d a, x d = .ok a → (Returns (f d a) ↔ Q d)) :
    (∀ d, Returns (x d >>= f d)) ↔ (∀ d, Returns (x d)) ∧ ∀ d, Q d := by
  rw [← forall_and]
  exact forall_congr' fun d => returns_bind_iff (h d)

theorem returns_bind_const {δ : Type} [Nonempty δ] {x : δ → Except ε α} {f : δ → α → Except ε β}
    (h : ∀ d a, x d = .ok a → (Returns (f d a) ↔ P)) :
    (∀ d, Returns (x d >>= f d)) ↔ (∀ d, Returns (x d)) ∧ P :=
  (returns_bind_forall h).trans (and_congr_right fun _ => forall_const δ)

theorem returns_ite {c : Prop} [Decidable c] {y : Except ε α} :
    Returns (if c then x else y) ↔ (c → Returns x) ∧ (¬ c → Returns y) := by
  by_cases hc : c <;> simp [hc]

theorem returns_mapM {g : α → Except ε β} {as : List α} :
    Returns (as.mapM g) ↔ ∀ a ∈ as, Returns (g a) := by
  induction as with
  | nil => simp
  | cons a as ih =>
    rw [List.mapM_cons, returns_bind_iff fun b _ => returns_bind_iff (P := True) fun _ _ => by simp,
      and_true, ih, List.forall_mem_cons]

theorem mem_mapM {g : α → Except ε β} {as : List α} {bs : List β} (h : as.mapM g = .ok bs) :
    ∀ b ∈ bs, ∃ a ∈ as, g a = .ok b := by
  induction as generalizing bs with
  | nil =>
    obtain rfl := Except.ok.inj h
    exact fun _ hb => absurd hb List.not_mem_nil
  | cons a as ih =>
    rw [List.mapM_cons, bind_ok] at h
    obtain ⟨b, hb, h⟩ := h
    rw [bind_ok] at h
    obtain ⟨rest, hrest, h⟩ := h
    obtain rfl := Except.ok.inj h
    intro b' hb'
    rcases List.mem_cons.mp hb' with rfl | hb'
    · exact ⟨a, List.mem_cons_self, hb⟩
    · obtain ⟨a', ha', hg⟩ := ih hrest b' hb'
      exact ⟨a', List.mem_cons_of_mem _ ha', hg⟩

theorem flatten_mapM_filter {g : α → Except ε (List β)} {p : α → Bool} {q : β → Bool} {as : List α}
    {bss : List (List β)} (htag : ∀ a bs, g a = .ok bs → ∀ b ∈ bs, q b = p a)
    (h : as.mapM g = .ok bss) :
    ∃ bss', (as.filter p).mapM g = .ok bss' ∧ bss'.flatten = bss.flatten.filter q := by
  induction as generalizing bss with
  | nil =>
    obtain rfl := Except.ok.inj h
    exact ⟨[], rfl, rfl⟩
  | cons a as ih =>
    rw [List.mapM_cons, bind_ok] at h
    obtain ⟨bs, hbs, h⟩ := h
    rw [bind_ok] at h
    obtain ⟨rest, hrest, h⟩ := h
    obtain rfl := Except.ok.inj h
    obtain ⟨rest', hrest', hflat⟩ := ih hrest
    rw [List.flatten_cons, List.filter_append, ← hflat]
    cases hp : p a with
    | true =>
      have hall : bs.filter q = bs := List.filter_eq_self.mpr fun b hb => (htag a bs hbs b hb).trans hp
      rw [List.filter_cons_of_pos hp, List.mapM_cons, hall]
      exact ⟨bs :: rest', bind_ok.mpr ⟨bs, hbs, bind_ok.mpr ⟨rest', hrest', rfl⟩⟩, rfl⟩
    | false =>
      have hnone : bs.filter q = [] := List.filter_eq_nil_iff.mpr fun b hb => by
        simp [htag a bs hbs b hb, hp]
      rw [List.filter_cons_of_neg (by simp [hp]), hnone]
      exact ⟨rest', hrest', rfl⟩

end Outcome
