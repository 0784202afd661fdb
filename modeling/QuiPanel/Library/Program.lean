import Mathlib.Logic.Function.Basic

namespace ReadCommitted

structure Schema where
  Key : Type
  Row : Key → Type
  Entry : Type
  Query : Type
  Answer : Query → Type

abbrev Rely (S : Schema) : Type := (k : S.Key) → Option (S.Row k) → Prop

inductive Prog (S : Schema) (ρ : Type) where
  | ret (r : ρ)
  | read (k : S.Key) (next : Option (S.Row k) → Prog S ρ) (fail : Prog S ρ)
  | update (k : S.Key) (guard : S.Row k → Bool) (set : S.Row k → S.Row k)
      (next : Bool → Prog S ρ) (fail : Prog S ρ)
  | create (make : Nat → (k : S.Key) × S.Row k) (next : Nat → Prog S ρ) (fail : Prog S ρ)
  | insert (e : S.Entry) (next : Prog S ρ) (fail : Prog S ρ)
  | begin (next : Prog S ρ)
  | commit (next : Prog S ρ) (fail : Prog S ρ)
  | rollback (next : Prog S ρ)
  | ask (q : S.Query) (next : S.Answer q → Prog S ρ)

variable {S : Schema} {ρ σ : Type}

namespace Prog

def bind : Prog S ρ → (ρ → Prog S σ) → Prog S σ
  | .ret r, f => f r
  | .read k next fail, f => .read k (fun v => (next v).bind f) (fail.bind f)
  | .update k g set next fail, f => .update k g set (fun b => (next b).bind f) (fail.bind f)
  | .create make next fail, f => .create make (fun n => (next n).bind f) (fail.bind f)
  | .insert e next fail, f => .insert e (next.bind f) (fail.bind f)
  | .begin next, f => .begin (next.bind f)
  | .commit next fail, f => .commit (next.bind f) (fail.bind f)
  | .rollback next, f => .rollback (next.bind f)
  | .ask q next, f => .ask q (fun a => (next a).bind f)

instance : Monad (Prog S) where
  pure := .ret
  bind := bind

@[simp] theorem pure_eq (r : ρ) : (pure r : Prog S ρ) = .ret r := rfl

@[simp] theorem bind_eq (p : Prog S ρ) (f : ρ → Prog S σ) : p >>= f = p.bind f := rfl

end Prog

structure Store (S : Schema) where
  row : (k : S.Key) → Option (S.Row k)
  log : List S.Entry

structure Pending (S : Schema) where
  held : (k : S.Key) → Option (Option (S.Row k) × S.Row k)
  log : List S.Entry

namespace Pending

def empty : Pending S := ⟨fun _ => none, []⟩

def note (p : Pending S) (e : S.Entry) : Pending S := { p with log := p.log ++ [e] }

def apply (p : Pending S) (s : Store S) : Store S where
  row k := match p.held k with
    | some (_, new) => some new
    | none => s.row k
  log := s.log ++ p.log

def Agrees (p : Pending S) (s : Store S) : Prop :=
  ∀ k old new, p.held k = some (old, new) → s.row k = old

@[simp] theorem empty_held (k : S.Key) : (empty : Pending S).held k = none := rfl

@[simp] theorem empty_log : (empty : Pending S).log = [] := rfl

@[simp] theorem note_held (p : Pending S) (e : S.Entry) : (p.note e).held = p.held := rfl

@[simp] theorem note_log (p : Pending S) (e : S.Entry) : (p.note e).log = p.log ++ [e] := rfl

@[simp] theorem apply_log (p : Pending S) (s : Store S) : (p.apply s).log = s.log ++ p.log := rfl

theorem apply_row_of_held {p : Pending S} {s : Store S} {k : S.Key} {old : Option (S.Row k)}
    {new : S.Row k} (h : p.held k = some (old, new)) : (p.apply s).row k = some new := by
  simp [apply, h]

theorem apply_row_of_free {p : Pending S} {s : Store S} {k : S.Key} (h : p.held k = none) :
    (p.apply s).row k = s.row k := by
  simp [apply, h]

variable [DecidableEq S.Key]

def put (p : Pending S) (k : S.Key) (old : Option (S.Row k)) (new : S.Row k) : Pending S :=
  { p with held := Function.update p.held k (some (((p.held k).map Prod.fst).getD old, new)) }

def one (k : S.Key) (old : Option (S.Row k)) (new : S.Row k) : Pending S := empty.put k old new

@[simp] theorem put_log (p : Pending S) (k : S.Key) (old : Option (S.Row k)) (new : S.Row k) :
    (p.put k old new).log = p.log := rfl

theorem put_held (p : Pending S) (k : S.Key) (old : Option (S.Row k)) (new : S.Row k) :
    (p.put k old new).held k = some (((p.held k).map Prod.fst).getD old, new) := by
  simp [put]

theorem put_held_of_ne (p : Pending S) {k j : S.Key} (old : Option (S.Row k)) (new : S.Row k)
    (h : j ≠ k) : (p.put k old new).held j = p.held j := by
  simp [put, h]

@[simp] theorem one_held (k : S.Key) (old : Option (S.Row k)) (new : S.Row k) :
    (one k old new).held k = some (old, new) := by
  simp [one, put_held]

theorem one_held_of_ne {k j : S.Key} (old : Option (S.Row k)) (new : S.Row k) (h : j ≠ k) :
    (one k old new).held j = none := by
  simp [one, put_held_of_ne _ _ _ h]

@[simp] theorem one_log (k : S.Key) (old : Option (S.Row k)) (new : S.Row k) :
    (one k old new).log = [] := rfl

end Pending

inductive Site (S : Schema) where
  | read (k : S.Key)
  | update (k : S.Key)
  | create
  | insert
  | commit

inductive Event (S : Schema) where
  | read (k : S.Key) (v : Option (S.Row k))
  | hit (k : S.Key) (old new : S.Row k)
  | miss (k : S.Key) (v : Option (S.Row k))
  | create (k : S.Key) (v : S.Row k)
  | insert (e : S.Entry)
  | begin
  | commit (p : Pending S)
  | rollback
  | ask (q : S.Query) (a : S.Answer q)
  | fault (s : Site S)

structure Frame (S : Schema) where
  tx : Option (Pending S)
  past : List (Event S)

namespace Frame

def init : Frame S := ⟨none, []⟩

def push (l : Frame S) (e : Event S) : Frame S := { l with past := l.past ++ [e] }

def view (l : Frame S) (s : Store S) (k : S.Key) : Option (S.Row k) :=
  match l.tx.bind (·.held k) with
  | some (_, new) => some new
  | none => s.row k

def start (l : Frame S) : Frame S := ⟨some .empty, l.past ++ [.begin]⟩

def finish (l : Frame S) : Frame S := ⟨none, l.past ++ [.commit (l.tx.getD .empty)]⟩

def abort (l : Frame S) : Frame S := ⟨none, l.past ++ [.rollback]⟩

def crash (l : Frame S) : Frame S := ⟨none, l.past ++ [.fault .commit]⟩

def add (l : Frame S) (e : S.Entry) : Frame S :=
  match l.tx with
  | some p => ⟨some (p.note e), l.past ++ [.insert e]⟩
  | none => ⟨none, l.past ++ [.commit (Pending.empty.note e)]⟩

variable [DecidableEq S.Key]

def write (l : Frame S) (k : S.Key) (old new : S.Row k) : Frame S :=
  match l.tx with
  | some p => ⟨some (p.put k (some old) new), l.past ++ [.hit k old new]⟩
  | none => ⟨none, l.past ++ [.commit (.one k (some old) new)]⟩

def fresh (l : Frame S) (k : S.Key) (v : S.Row k) : Frame S :=
  match l.tx with
  | some p => ⟨some (p.put k none v), l.past ++ [.create k v]⟩
  | none => ⟨none, l.past ++ [.commit (.one k none v)]⟩

end Frame

namespace Prog

variable [DecidableEq S.Key]

def wp (R : Rely S) (G : Pending S → Prop)
    (Φ : Frame S → ρ → Prop) : Prog S ρ → Frame S → Prop
  | .ret r, l => Φ l r
  | .read k next fail, l =>
      (∀ v, R k v → (next v).wp R G Φ (l.push (.read k v))) ∧
        fail.wp R G Φ (l.push (.fault (.read k)))
  | .update k guard set next fail, l =>
      (∀ v, R k (some v) → guard v = true → R k (some (set v)) ∧
        (l.tx = none → G (.one k (some v) (set v))) ∧
        (next true).wp R G Φ (l.write k v (set v))) ∧
      (∀ v, R k v → (∀ u, v = some u → guard u = false) →
        (next false).wp R G Φ (l.push (.miss k v))) ∧
      fail.wp R G Φ (l.push (.fault (.update k)))
  | .create make next fail, l =>
      l.tx = none ∧
      (∀ n, R (make n).1 none → G (.one (make n).1 none (make n).2) ∧
        (R (make n).1 (some (make n).2) →
          (next n).wp R G Φ (l.fresh (make n).1 (make n).2))) ∧
      fail.wp R G Φ (l.push (.fault .create))
  | .insert e next fail, l =>
      (l.tx = none → G (Pending.empty.note e)) ∧ next.wp R G Φ (l.add e) ∧
        fail.wp R G Φ (l.push (.fault .insert))
  | .begin next, l => next.wp R G Φ l.start
  | .commit next fail, l =>
      G (l.tx.getD .empty) ∧ next.wp R G Φ l.finish ∧ fail.wp R G Φ l.crash
  | .rollback next, l => next.wp R G Φ l.abort
  | .ask q next, l => ∀ a, (next a).wp R G Φ (l.push (.ask q a))

variable {R : Rely S}

theorem wp_bind (G : Pending S → Prop) (Φ : Frame S → σ → Prop) (p : Prog S ρ)
    (f : ρ → Prog S σ) (l : Frame S) :
    (p.bind f).wp R G Φ l ↔ p.wp R G (fun l' r => (f r).wp R G Φ l') l := by
  induction p generalizing l with
  | ret r => rfl
  | read k next fail ihn ihf => simp only [bind, wp, ihn, ihf]
  | update k guard set next fail ihn ihf => simp only [bind, wp, ihn, ihf]
  | create make next fail ihn ihf => simp only [bind, wp, ihn, ihf]
  | insert e next fail ihn ihf => simp only [bind, wp, ihn, ihf]
  | begin next ih => simp only [bind, wp, ih]
  | commit next fail ihn ihf => simp only [bind, wp, ihn, ihf]
  | rollback next ih => simp only [bind, wp, ih]
  | ask q next ih => simp only [bind, wp, ih]

variable {Φ Φ' : Frame S → ρ → Prop}

theorem wp_mono {G G' : Pending S → Prop} (p : Prog S ρ)
    (hG : ∀ q, G q → G' q) (h : ∀ l r, Φ l r → Φ' l r) (l : Frame S) (hp : p.wp R G Φ l) :
    p.wp R G' Φ' l := by
  induction p generalizing l with
  | ret r => exact h l r hp
  | read k next fail ihn ihf => exact ⟨fun v hv => ihn v _ (hp.1 v hv), ihf _ hp.2⟩
  | update k guard set next fail ihn ihf =>
    refine ⟨fun v hv hg => ?_, fun v hv hg => ihn false _ (hp.2.1 v hv hg), ihf _ hp.2.2⟩
    obtain ⟨h₁, h₂, h₃⟩ := hp.1 v hv hg
    exact ⟨h₁, fun ht => hG _ (h₂ ht), ihn true _ h₃⟩
  | create make next fail ihn ihf =>
    refine ⟨hp.1, fun n hn => ?_, ihf _ hp.2.2⟩
    obtain ⟨h₁, h₂⟩ := hp.2.1 n hn
    exact ⟨hG _ h₁, fun hv => ihn n _ (h₂ hv)⟩
  | insert e next fail ihn ihf =>
    exact ⟨fun ht => hG _ (hp.1 ht), ihn _ hp.2.1, ihf _ hp.2.2⟩
  | begin next ih => exact ih _ hp
  | commit next fail ihn ihf => exact ⟨hG _ hp.1, ihn _ hp.2.1, ihf _ hp.2.2⟩
  | rollback next ih => exact ih _ hp
  | ask q next ih => exact fun a => ih a _ (hp a)

theorem wp_and {G G' : Pending S → Prop} (p : Prog S ρ) (l : Frame S)
    (hp : p.wp R G Φ l) (hp' : p.wp R G' Φ' l) :
    p.wp R (fun q => G q ∧ G' q) (fun l r => Φ l r ∧ Φ' l r) l := by
  induction p generalizing l with
  | ret r => exact ⟨hp, hp'⟩
  | read k next fail ihn ihf =>
    exact ⟨fun v hv => ihn v _ (hp.1 v hv) (hp'.1 v hv), ihf _ hp.2 hp'.2⟩
  | update k guard set next fail ihn ihf =>
    refine ⟨fun v hv hg => ?_, fun v hv hg => ihn false _ (hp.2.1 v hv hg) (hp'.2.1 v hv hg),
      ihf _ hp.2.2 hp'.2.2⟩
    obtain ⟨h₁, h₂, h₃⟩ := hp.1 v hv hg
    obtain ⟨-, h₂', h₃'⟩ := hp'.1 v hv hg
    exact ⟨h₁, fun ht => ⟨h₂ ht, h₂' ht⟩, ihn true _ h₃ h₃'⟩
  | create make next fail ihn ihf =>
    refine ⟨hp.1, fun n hn => ?_, ihf _ hp.2.2 hp'.2.2⟩
    obtain ⟨h₁, h₂⟩ := hp.2.1 n hn
    obtain ⟨h₁', h₂'⟩ := hp'.2.1 n hn
    exact ⟨⟨h₁, h₁'⟩, fun hv => ihn n _ (h₂ hv) (h₂' hv)⟩
  | insert e next fail ihn ihf =>
    exact ⟨fun ht => ⟨hp.1 ht, hp'.1 ht⟩, ihn _ hp.2.1 hp'.2.1, ihf _ hp.2.2 hp'.2.2⟩
  | begin next ih => exact ih _ hp hp'
  | commit next fail ihn ihf =>
    exact ⟨⟨hp.1, hp'.1⟩, ihn _ hp.2.1 hp'.2.1, ihf _ hp.2.2 hp'.2.2⟩
  | rollback next ih => exact ih _ hp hp'
  | ask q next ih => exact fun a => ih a _ (hp a) (hp' a)

end Prog

end ReadCommitted
