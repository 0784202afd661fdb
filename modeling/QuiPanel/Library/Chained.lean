import Mathlib

namespace Chained

inductive Value
  | int (n : Int)
  | text (s : String)
deriving DecidableEq

def Value.toInt : Value → Int
  | .int n => n
  | .text _ => 0

section syntaxes

variable (T Col : Type)

abbrev Row := Col → Value

inductive Condition
  | eq (col : Col) (v : Value)
  | ne (col : Col) (v : Value)
  | lt (col : Col) (n : Int)
  | ge (col : Col) (n : Int)
  | le (col : Col) (n : Int)
  | notIn (col : Col) (vs : List Value)

structure Table where
  columns : List Col
  rows : List (Row Col)

structure Statement where
  model : Option T
  table : Option T
  filters : List (Condition Col)
  scopes : List (Condition Col)
  groups : List Col
  repeated : Bool
  failed : Bool

end syntaxes

variable {T Col : Type}

def Condition.column : Condition Col → Col
  | .eq col _ | .ne col _ | .lt col _ | .ge col _ | .le col _ | .notIn col _ => col

def Condition.holds (row : Row Col) : Condition Col → Bool
  | .eq col v => row col = v
  | .ne col v => row col ≠ v
  | .lt col n => (row col).toInt < n
  | .ge col n => n ≤ (row col).toInt
  | .le col n => (row col).toInt ≤ n
  | .notIn col vs => row col ∉ vs

abbrev Chain (T Col : Type) := StateM (Statement T Col)

def opened (scopes : List (Condition Col)) : Statement T Col := ⟨none, none, [], scopes, [], false, false⟩

def model (t : T) : Chain T Col Unit := modify fun s => { s with model := some t }

def wheres (fs : List (Condition Col)) : Chain T Col Unit := modify fun s => { s with filters := s.filters ++ fs }

def groupBy (col : Col) : Chain T Col Unit := modify fun s => { s with groups := s.groups ++ [col] }

def havingRepeated : Chain T Col Unit := modify fun s => { s with repeated := true }

variable [DecidableEq Col] (tables : T → Table Col)

def Statement.source (s : Statement T Col) : Option T := s.table.or s.model

def Statement.conditions (s : Statement T Col) : List (Condition Col) := s.filters ++ s.scopes

def Statement.parsed (s : Statement T Col) : Statement T Col :=
  { s with filters := s.conditions, scopes := [], table := s.source }

def Statement.readable (s : Statement T Col) (selects : List Col) : Bool :=
  match s.source with
  | none => false
  | some t => !s.failed &&
      (selects ++ s.conditions.map Condition.column ++ s.groups).all fun col => (tables t).columns.contains col

def Statement.matching (s : Statement T Col) : List (Row Col) :=
  match s.source with
  | none => []
  | some t => (tables t).rows.filter fun row => s.conditions.all (Condition.holds row)

def Statement.buckets (s : Statement T Col) : List (List (Row Col)) :=
  if s.groups = [] then [s.matching tables]
  else
    (((s.matching tables).map fun row => s.groups.map row).dedup.map fun key =>
      (s.matching tables).filter fun row => s.groups.map row = key).filter
        fun bucket => !s.repeated || 1 < bucket.length

def scan (selects : List Col) : Chain T Col (Option (List (List (Row Col)))) := fun s =>
  if s.readable tables selects then (some (s.buckets tables), s.parsed)
  else (none, { s.parsed with failed := true })

def firstBucket (f : List (Row Col) → Int) (scanned : Option (List (List (Row Col)))) : Int :=
  ((scanned.getD []).head?.map f).getD 0

def total (col : Col) (rows : List (Row Col)) : Int := (rows.map fun row => (row col).toInt).sum

def sum (col : Col) : Chain T Col Int := firstBucket (total col) <$> scan tables [col]

def count : Chain T Col Int := firstBucket (fun rows => (rows.length : Int)) <$> scan tables []

def perGroup (key : Col) : Chain T Col (List Int) :=
  (fun scanned => (scanned.getD []).filterMap fun bucket => bucket.head?.map fun row => (row key).toInt) <$>
    scan tables [key]

def groups : Chain T Col Int := (fun scanned => ((scanned.getD []).length : Int)) <$> scan tables []

variable {tables} {s : Statement T Col} {t : T} {fs : List (Condition Col)} {col : Col} {col' : Col}
  {selects : List Col}

theorem scan_unreadable (h : s.readable tables selects = false) :
    scan tables selects s = (none, { s.parsed with failed := true }) := by
  rw [scan, h, if_neg nofun]

theorem scan_readable (h : s.readable tables selects = true) :
    scan tables selects s = (some (s.buckets tables), s.parsed) := by
  rw [scan, if_pos h]

theorem unreadable_failed (h : s.failed = true) : s.readable tables selects = false := by
  rw [Statement.readable]
  cases s.source with
  | none => rfl
  | some t => simp [h]

theorem unreadable_missing (col : Col) (hsource : s.source = some t)
    (hcol : col ∈ selects ++ s.conditions.map Condition.column ++ s.groups) (hmissing : col ∉ (tables t).columns) :
    s.readable tables selects = false := by
  simp only [Statement.readable, hsource, Bool.and_eq_false_iff]
  right
  rw [List.all_eq_false]
  exact ⟨col, hcol, by simpa using hmissing⟩

omit [DecidableEq Col] in
theorem matching_conflict {v v' : Value} (hv : .eq col v ∈ s.conditions) (hv' : .eq col v' ∈ s.conditions)
    (hne : v ≠ v') : s.matching tables = [] := by
  rw [Statement.matching]
  cases s.source with
  | none => rfl
  | some t =>
    rw [List.filter_eq_nil_iff]
    intro row _ hall
    rw [List.all_eq_true] at hall
    have h := of_decide_eq_true (hall _ hv)
    have h' := of_decide_eq_true (hall _ hv')
    exact hne (h.symm.trans h')

variable {α : Type*} {cell : α → Row Col}

omit [DecidableEq Col] in
theorem total_matching {xs : List α} {p : α → Bool} {f : α → Int}
    (hsource : s.source = some t) (hrows : (tables t).rows = xs.map cell)
    (hp : ∀ x, s.conditions.all (Condition.holds (cell x)) = p x) (hf : ∀ x, (cell x col).toInt = f x) :
    total col (s.matching tables) = ((xs.filter p).map f).sum := by
  have hfilter : xs.filter ((fun row => s.conditions.all (Condition.holds row)) ∘ cell) = xs.filter p :=
    List.filter_congr fun x _ => hp x
  simp only [Statement.matching, hsource, hrows, List.filter_map, hfilter, total, List.map_map]
  exact congrArg List.sum (List.map_congr_left fun x _ => hf x)

omit [DecidableEq Col] in
theorem length_matching {xs : List α} {p : α → Bool}
    (hsource : s.source = some t) (hrows : (tables t).rows = xs.map cell)
    (hp : ∀ x, s.conditions.all (Condition.holds (cell x)) = p x) :
    (s.matching tables).length = (xs.filter p).length := by
  have hfilter : xs.filter ((fun row => s.conditions.all (Condition.holds row)) ∘ cell) = xs.filter p :=
    List.filter_congr fun x _ => hp x
  simp only [Statement.matching, hsource, hrows, List.filter_map, hfilter, List.length_map]

omit [DecidableEq Col] in
theorem matching_none {xs : List α} (hsource : s.source = some t)
    (hrows : (tables t).rows = xs.map cell)
    (h : ∀ x ∈ xs, s.conditions.all (Condition.holds (cell x)) = false) : s.matching tables = [] := by
  rw [Statement.matching]
  simp only [hsource, hrows]
  rw [List.filter_eq_nil_iff, List.forall_mem_map]
  exact fun x hx => by simp [h x hx]

omit [DecidableEq Col] in
theorem buckets_nil (hgroups : s.groups ≠ []) (h : s.matching tables = []) : s.buckets tables = [] := by
  rw [Statement.buckets, if_neg hgroups, h]
  rfl

def Statement.queried (s : Statement T Col) (t : T) (fs : List (Condition Col)) : Statement T Col :=
  { s with model := some t, filters := s.filters ++ fs }

def Statement.broken (s : Statement T Col) : Statement T Col := { s.parsed with failed := true }

def query (t : T) (fs : List (Condition Col)) : Chain T Col Unit := do
  model t
  wheres fs

variable (tables)

def sumOf (t : T) (fs : List (Condition Col)) (col : Col) : Chain T Col Int := do
  query t fs
  sum tables col

def countOf (t : T) (fs : List (Condition Col)) : Chain T Col Int := do
  query t fs
  count tables

def repeatedOf (t : T) (fs : List (Condition Col)) (col : Col) : Chain T Col Int := do
  query t fs
  groupBy col
  havingRepeated
  groups tables

variable {tables}

omit [DecidableEq Col] in
theorem run_map {α β : Type} (f : α → β) (c : Chain T Col α) : (f <$> c) s = (f (c s).1, (c s).2) := rfl

omit [DecidableEq Col] in
theorem run_bind {α β : Type} (c : Chain T Col α) (f : α → Chain T Col β) :
    (c >>= f) s = f (c s).1 (c s).2 := rfl

omit [DecidableEq Col] in
theorem run_pure {α : Type} (a : α) : (pure a : Chain T Col α) s = (a, s) := rfl

def Statement.Dead (s : Statement T Col) : Prop := s.failed = true

omit [DecidableEq Col] in
theorem broken_dead : s.broken.Dead := rfl

omit [DecidableEq Col] in
theorem query_run : query t fs s = ((), s.queried t fs) := rfl

theorem sum_unreadable (h : s.readable tables [col] = false) : sum tables col s = (0, s.broken) := by
  rw [sum, run_map, scan_unreadable h]
  rfl

theorem count_unreadable (h : s.readable tables [] = false) : count tables s = (0, s.broken) := by
  rw [count, run_map, scan_unreadable h]
  rfl

theorem sum_readable (h : s.readable tables [col] = true) (hgroups : s.groups = []) :
    sum tables col s = (total col (s.matching tables), s.parsed) := by
  rw [sum, run_map, scan_readable h, Statement.buckets, if_pos hgroups]
  rfl

theorem count_readable (h : s.readable tables [] = true) (hgroups : s.groups = []) :
    count tables s = (((s.matching tables).length : Int), s.parsed) := by
  rw [count, run_map, scan_readable h, Statement.buckets, if_pos hgroups]
  rfl

theorem sum_empty (hgroups : s.groups = []) (h : s.matching tables = []) : (sum tables col s).1 = 0 := by
  cases hreadable : s.readable tables [col] with
  | true => rw [sum_readable hreadable hgroups, h]; rfl
  | false => rw [sum_unreadable hreadable]

theorem sum_groups : (sum tables col s).2.groups = s.groups := by
  rw [sum, run_map]
  cases hreadable : s.readable tables [col] with
  | true => rw [scan_readable hreadable]; rfl
  | false => rw [scan_unreadable hreadable]; rfl

theorem sum_conditions : (sum tables col s).2.conditions = s.conditions := by
  rw [sum, run_map]
  cases hreadable : s.readable tables [col] with
  | true => rw [scan_readable hreadable]; exact List.append_nil _
  | false => rw [scan_unreadable hreadable]; exact List.append_nil _

theorem perGroup_empty (hreadable : s.readable tables [col] = true) (hgroups : s.groups ≠ [])
    (h : s.matching tables = []) : perGroup tables col s = ([], s.parsed) := by
  rw [perGroup, run_map, scan_readable hreadable, buckets_nil hgroups h]
  rfl

theorem sumOf_readable (h : (s.queried t fs).readable tables [col] = true) (hgroups : s.groups = []) :
    sumOf tables t fs col s =
      (total col ((s.queried t fs).matching tables), (s.queried t fs).parsed) :=
  sum_readable h hgroups

theorem countOf_readable (h : (s.queried t fs).readable tables [] = true) (hgroups : s.groups = []) :
    countOf tables t fs s = ((((s.queried t fs).matching tables).length : Int), (s.queried t fs).parsed) :=
  count_readable h hgroups

theorem sumOf_unreadable (h : (s.queried t fs).readable tables [col] = false) :
    sumOf tables t fs col s = (0, (s.queried t fs).broken) :=
  sum_unreadable h

theorem countOf_unreadable (h : (s.queried t fs).readable tables [] = false) :
    countOf tables t fs s = (0, (s.queried t fs).broken) :=
  count_unreadable h

theorem sum_dead (h : s.Dead) : sum tables col s = (0, s.broken) := sum_unreadable (unreadable_failed h)

theorem sumOf_run : sumOf tables t fs col s = sum tables col (s.queried t fs) := rfl

theorem countOf_run : countOf tables t fs s = count tables (s.queried t fs) := rfl

theorem queried_unreadable (h : s.Dead) : (s.queried t fs).readable tables selects = false :=
  unreadable_failed h

theorem sumOf_dead (h : s.Dead) : sumOf tables t fs col s = (0, (s.queried t fs).broken) := by
  rw [sumOf_run, sum_unreadable (queried_unreadable h)]

theorem countOf_dead (h : s.Dead) : countOf tables t fs s = (0, (s.queried t fs).broken) := by
  rw [countOf_run, count_unreadable (queried_unreadable h)]

theorem groups_unreadable (h : s.readable tables [] = false) : groups tables s = (0, s.broken) := by
  rw [groups, run_map, scan_unreadable h]
  rfl

theorem repeatedOf_dead (h : s.Dead) : repeatedOf tables t fs col s =
    (0, { s.queried t fs with groups := s.groups ++ [col], repeated := true }.broken) :=
  groups_unreadable (unreadable_failed h)

theorem sumOf_conflict (col' : Col) (v v' : Value) (h : (s.queried t fs).readable tables [col] = true)
    (hgroups : s.groups = []) (hv : .eq col' v ∈ (s.queried t fs).conditions)
    (hv' : .eq col' v' ∈ (s.queried t fs).conditions) (hne : v ≠ v') :
    sumOf tables t fs col s = (0, (s.queried t fs).parsed) := by
  rw [sumOf_readable h hgroups, matching_conflict hv hv' hne]
  rfl

theorem countOf_conflict (col : Col) (v v' : Value) (h : (s.queried t fs).readable tables [] = true)
    (hgroups : s.groups = []) (hv : .eq col v ∈ (s.queried t fs).conditions)
    (hv' : .eq col v' ∈ (s.queried t fs).conditions) (hne : v ≠ v') :
    countOf tables t fs s = (0, (s.queried t fs).parsed) := by
  rw [countOf_readable h hgroups, matching_conflict hv hv' hne]
  rfl

end Chained
