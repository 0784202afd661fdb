import Mathlib.Data.List.Basic

namespace HostPort

def splitLast (s : List Char) : Option (List Char × List Char) :=
  match s.reverse.dropWhile (· ≠ ':') with
  | [] => none
  | _ :: pre => some (pre.reverse, (s.reverse.takeWhile (· ≠ ':')).reverse)

def bare (s : List Char) : Bool := !s.contains '[' && !s.contains ']'

def splitHostPort (s : List Char) : Option (List Char × List Char) :=
  match splitLast s with
  | none => none
  | some (pre, port) =>
    match pre with
    | '[' :: rest =>
      let host := rest.takeWhile (· ≠ ']')
      if rest = host ++ [']'] ∧ bare host ∧ bare port then some (host, port) else none
    | host => if ¬ ':' ∈ host ∧ bare host ∧ bare port then some (host, port) else none

def Form (host : List Char) : Prop :=
  (':' ∉ host ∧ bare host = true) ∨ ∃ inner, host = '[' :: (inner ++ [']']) ∧ bare inner = true

def unbracket : List Char → List Char
  | '[' :: rest => rest.takeWhile (· ≠ ']')
  | host => host

variable {pre port host inner : List Char}

theorem splitLast_append (h : ':' ∉ port) : splitLast (pre ++ ':' :: port) = some (pre, port) := by
  have hport : ∀ c ∈ port.reverse, decide (c ≠ ':') = true := by
    intro c hc
    rw [decide_eq_true_iff]
    rintro rfl
    exact h (List.mem_reverse.mp hc)
  have hreverse : (pre ++ ':' :: port).reverse = port.reverse ++ ':' :: pre.reverse := by simp
  rw [splitLast, hreverse, List.dropWhile_append_of_pos hport, List.takeWhile_append_of_pos hport]
  simp

theorem takeWhile_bracket (h : bare inner = true) :
    (inner ++ [']']).takeWhile (· ≠ ']') = inner := by
  have hinner : ∀ c ∈ inner, decide (c ≠ ']') = true := by
    intro c hc
    rw [decide_eq_true_iff]
    rintro rfl
    simp [bare, hc] at h
  rw [List.takeWhile_append_of_pos hinner]
  simp

theorem form_bracket {rest : List Char} : Form ('[' :: rest) ↔
    rest = rest.takeWhile (· ≠ ']') ++ [']'] ∧ bare (rest.takeWhile (· ≠ ']')) = true := by
  constructor
  · rintro (⟨-, hbare⟩ | ⟨inner, heq, hbare⟩)
    · simp [bare] at hbare
    · obtain rfl := (List.cons.inj heq).2
      rw [takeWhile_bracket hbare]
      exact ⟨rfl, hbare⟩
  · rintro ⟨heq, hbare⟩
    exact .inr ⟨_, congrArg ('[' :: ·) heq, hbare⟩

theorem form_plain (h : ∀ rest, host ≠ '[' :: rest) : Form host ↔ ':' ∉ host ∧ bare host = true := by
  constructor
  · rintro (hplain | ⟨inner, heq, -⟩)
    · exact hplain
    · exact absurd heq (h _)
  · exact .inl

theorem splitHostPort_iff (hcolon : ':' ∉ port) (hport : bare port = true) {got want : List Char} :
    splitHostPort (host ++ ':' :: port) = some (got, want) ↔
      Form host ∧ got = unbracket host ∧ want = port := by
  rw [splitHostPort, splitLast_append hcolon]
  simp only
  split
  case h_1 rest =>
    rw [form_bracket, unbracket]
    simp only [hport, and_true, Option.ite_none_right_eq_some, Option.some.injEq, Prod.mk.injEq, and_assoc,
      eq_comm (a := got), eq_comm (a := want)]
  case h_2 hne =>
    have hplain : ∀ rest, host ≠ '[' :: rest := fun rest he => hne rest he
    have hsame : unbracket host = host := by
      rw [unbracket]
      exact hplain
    rw [form_plain hplain, hsame]
    simp only [hport, and_true, Option.ite_none_right_eq_some, Option.some.injEq, Prod.mk.injEq, and_assoc,
      eq_comm (a := got), eq_comm (a := want)]

end HostPort
